/-!
# Searching in a text

The first place where one text occurs inside another, and the parts before and after it.  The empty
text occurs at the very start of every text.
-/

namespace CborPath

namespace Text

/-- How many characters stand before the first occurrence of `needle`. -/
def find? (needle : List Char) : List Char → Option Nat
  | [] => if needle.isEmpty then some 0 else none
  | c :: rest =>
      if needle.isPrefixOf (c :: rest) then some 0
      else (find? needle rest).map (· + 1)

/-- Whether `needle` occurs in the text. -/
def contains (text needle : List Char) : Bool :=
  (find? needle text).isSome

/-- Whether the text begins with `start`. -/
def startsWith (text start : List Char) : Bool :=
  start.isPrefixOf text

/-- Whether the text ends with `ending`. -/
def endsWith (text ending : List Char) : Bool :=
  ending.isSuffixOf text

/-- The part before the first occurrence of `separator`, empty if there is none. -/
def before (text separator : List Char) : List Char :=
  match find? separator text with
  | some count => text.take count
  | none => []

/-- The part after the first occurrence of `separator`, empty if there is none. -/
def after (text separator : List Char) : List Char :=
  match find? separator text with
  | some count => text.drop (count + separator.length)
  | none => []

/-- Replaces every character of `source` by the one at the same place of `target`, and drops it if
there is none.  Only the first place of a repeated character counts. -/
def translate (text source target : List Char) : List Char :=
  text.filterMap fun c =>
    match source.idxOf? c with
    | some place => target[place]?
    | none => some c

/-- A text is found if and only if it occurs. -/
theorem contains_iff {text needle : List Char} :
    contains text needle = true ↔ needle <:+: text := by
  unfold contains
  induction text with
  | nil =>
      cases needle <;> simp [find?]
  | cons c rest ih =>
      rw [find?, List.infix_cons_iff]
      split
      · rename_i hHere
        simp [List.isPrefixOf_iff_prefix.1 hHere]
      · rename_i hHere
        have hNotHere : ¬ needle <+: c :: rest :=
          fun h => hHere (List.isPrefixOf_iff_prefix.2 h)
        simp [ih, hNotHere]

/-- What stands where a text is found. -/
theorem drop_of_find?_eq_some {text needle : List Char} {count : Nat}
    (h : find? needle text = some count) :
    needle <+: text.drop count := by
  induction text generalizing count with
  | nil =>
      cases needle with
      | nil => simp
      | cons c rest => simp [find?] at h
  | cons c rest ih =>
      rw [find?] at h
      split at h
      · rename_i hHere
        cases h
        exact List.isPrefixOf_iff_prefix.1 hHere
      · obtain ⟨place, hPlace, rfl⟩ := Option.map_eq_some_iff.1 h
        exact ih hPlace

/-- A text does not occur before the place where it is found. -/
theorem not_prefix_of_lt_find? {text needle : List Char} {count place : Nat}
    (h : find? needle text = some count) (hPlace : place < count) :
    ¬ needle <+: text.drop place := by
  induction text generalizing count place with
  | nil =>
      cases needle with
      | nil =>
          simp only [find?, List.isEmpty_nil, if_true, Option.some.injEq] at h
          omega
      | cons c rest => simp [find?] at h
  | cons c rest ih =>
      rw [find?] at h
      split at h
      · cases h
        omega
      · rename_i hHere
        obtain ⟨later, hLater, rfl⟩ := Option.map_eq_some_iff.1 h
        cases place with
        | zero => exact fun hStart => hHere (List.isPrefixOf_iff_prefix.2 hStart)
        | succ place => exact ih hLater (by omega)

end Text

end CborPath
