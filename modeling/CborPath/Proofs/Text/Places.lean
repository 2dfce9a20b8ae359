import CborPath.Text.Class

/-!
# Places in texts

A place in a text is a number of bytes.  Characters stand only at the places between two characters, at
the start and at the end: these are the places where an end of the text begins.
-/

namespace CborPath

namespace Text

@[simp] theorem byteLength_nil : byteLength [] = 0 :=
  rfl

@[simp] theorem byteLength_cons (c : Char) (s : List Char) :
    byteLength (c :: s) = c.utf8Size + byteLength s :=
  rfl

@[simp] theorem byteLength_append (s t : List Char) :
    byteLength (s ++ t) = byteLength s + byteLength t := by
  induction s with
  | nil => simp
  | cons c s ih => rw [List.cons_append, byteLength_cons, byteLength_cons, ih, Nat.add_assoc]

theorem byteLength_eq_utf8ByteSize (s : List Char) :
    byteLength s = (String.ofList s).utf8ByteSize := by
  induction s with
  | nil => rfl
  | cons c s ih =>
      rw [← List.singleton_append, String.ofList_append, String.utf8ByteSize_append, ← ih,
        ← String.singleton_eq_ofList, String.utf8ByteSize_singleton]
      rfl

theorem byteLength_toList (text : String) : byteLength text.toList = text.utf8ByteSize := by
  rw [byteLength_eq_utf8ByteSize, String.ofList_toList]

/-- The characters of a text from a place on.  There are none if the place is inside a character or
behind the end. -/
def charactersFrom? : Nat → List Char → Option (List Char)
  | 0, s => some s
  | _ + 1, [] => none
  | place + 1, c :: s =>
      if c.utf8Size ≤ place + 1 then charactersFrom? (place + 1 - c.utf8Size) s else none

/-- The characters of a text between two places. -/
def charactersBetween? (start stop : Nat) (text : List Char) : Option (List Char) :=
  match charactersFrom? start text, charactersFrom? stop text with
  | some s, some rest => if start ≤ stop then some (s.take (s.length - rest.length)) else none
  | _, _ => none

/-- The place where an end of a text begins. -/
def placeOf (text s : List Char) : Nat :=
  byteLength text - byteLength s

section Places

variable {text s rest : List Char} {place : Nat}

/-- Characters stand at a place if just as many bytes come before them. -/
theorem charactersFrom?_eq_some_iff :
    charactersFrom? place text = some s ↔ ∃ before, text = before ++ s ∧ place = byteLength before := by
  constructor
  · intro h
    induction text generalizing place with
    | nil =>
        cases place with
        | zero =>
            cases h
            exact ⟨[], rfl, rfl⟩
        | succ place => cases h
    | cons c text ih =>
        cases place with
        | zero =>
            cases h
            exact ⟨[], rfl, rfl⟩
        | succ place =>
            rw [charactersFrom?] at h
            split at h
            · rename_i hSize
              obtain ⟨before, rfl, hPlace⟩ := ih h
              refine ⟨c :: before, rfl, ?_⟩
              rw [byteLength_cons]
              omega
            · cases h
  · rintro ⟨before, rfl, rfl⟩
    induction before with
    | nil => rw [byteLength_nil, charactersFrom?, List.nil_append]
    | cons c before ih =>
        have hPos := c.utf8Size_pos
        obtain ⟨place, hPlace⟩ : ∃ place, byteLength (c :: before) = place + 1 :=
          ⟨byteLength (c :: before) - 1, by rw [byteLength_cons]; omega⟩
        rw [hPlace, List.cons_append, charactersFrom?]
        rw [byteLength_cons] at hPlace
        rw [if_pos (by omega), ← hPlace, Nat.add_sub_cancel_left, ih]

/-- The places where characters stand are the valid positions of a text. -/
theorem isSome_charactersFrom?_iff {text : String} :
    (charactersFrom? place text.toList).isSome = true ↔ String.Pos.Raw.IsValid text ⟨place⟩ := by
  rw [Option.isSome_iff_exists, String.Pos.Raw.isValid_iff_exists_append]
  constructor
  · rintro ⟨s, h⟩
    obtain ⟨before, hText, hPlace⟩ := charactersFrom?_eq_some_iff.1 h
    refine ⟨String.ofList before, String.ofList s, ?_, String.Pos.Raw.ext ?_⟩
    · rw [← String.ofList_append, ← hText, String.ofList_toList]
    · rw [String.byteIdx_rawEndPos, ← byteLength_eq_utf8ByteSize, hPlace]
  · rintro ⟨before, s, rfl, hPlace⟩
    refine ⟨s.toList, charactersFrom?_eq_some_iff.2 ⟨before.toList, String.toList_append, ?_⟩⟩
    rw [byteLength_toList, ← String.byteIdx_rawEndPos, ← hPlace]

/-- Pieces can be cut out between the valid positions of a text. -/
theorem isSome_charactersBetween?_iff {text : String} {start stop : Nat} :
    (charactersBetween? start stop text.toList).isSome = true ↔
      String.Pos.Raw.IsValid text ⟨start⟩ ∧ String.Pos.Raw.IsValid text ⟨stop⟩ ∧ start ≤ stop := by
  rw [← isSome_charactersFrom?_iff, ← isSome_charactersFrom?_iff, charactersBetween?]
  cases charactersFrom? start text.toList <;> cases charactersFrom? stop text.toList <;> simp

theorem placeOf_append_add {word : List Char} (h : word ++ rest <:+ text) :
    placeOf text (word ++ rest) + byteLength word = placeOf text rest := by
  obtain ⟨before, rfl⟩ := h
  simp only [placeOf, byteLength_append]
  omega

/-- An end of a text stands at its place. -/
theorem charactersFrom?_placeOf (h : s <:+ text) :
    charactersFrom? (placeOf text s) text = some s := by
  obtain ⟨before, rfl⟩ := h
  refine charactersFrom?_eq_some_iff.2 ⟨before, rfl, ?_⟩
  rw [placeOf, byteLength_append, Nat.add_sub_cancel_right]

/-- What stands between two places. -/
theorem charactersBetween?_placeOf {word : List Char} (h : word ++ rest <:+ text) :
    charactersBetween? (placeOf text (word ++ rest)) (placeOf text rest) text = some word := by
  have hOrder := placeOf_append_add h
  have hRest := (List.suffix_append word rest).trans h
  rw [charactersBetween?, charactersFrom?_placeOf h, charactersFrom?_placeOf hRest]
  dsimp only
  rw [if_pos (by omega), List.length_append, Nat.add_sub_cancel_right, List.take_left]

/-- What is cut out from a place on comes next there. -/
theorem prefix_of_charactersBetween?_eq_some {word : List Char} {stop : Nat} (h : s <:+ text)
    (hBetween : charactersBetween? (placeOf text s) stop text = some word) :
    word <+: s := by
  rw [charactersBetween?, charactersFrom?_placeOf h] at hBetween
  split at hBetween
  · rename_i hStart _
    cases hStart
    split at hBetween
    · cases hBetween
      exact List.take_prefix _ _
    · cases hBetween
  · cases hBetween

theorem placeOf_le : placeOf text s ≤ byteLength text :=
  Nat.sub_le _ _

theorem placeOf_nil : placeOf text [] = byteLength text :=
  rfl

theorem placeOf_self : placeOf text text = 0 :=
  Nat.sub_self _

end Places

end Text

end CborPath
