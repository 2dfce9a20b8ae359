import CborPath.Document.Outline
import Mathlib.Logic.Basic

/-!
# Keys that name no element

A document has an outline exactly if every key of every mapping that is reached through items and
mapping values names an element.  Otherwise the outline fails at the first key that does not, in an
order that is fixed by the document: the keys of a mapping as they stand, then what is met in its
values, these in the order of their names.
-/

namespace CborPath

/-- A key that names an element has its name. -/
theorem elementName_eq_of_namesElement {key : Value} (h : key.namesElement = true) :
    key.elementName = .ok key.elementNameD := by
  rcases key with items | inner | s
  · cases h
  · cases h
  · cases s <;> first | rfl | cases h

theorem elementNameD_eq_of_elementName_eq_ok {key : Value} {name : String}
    (h : key.elementName = .ok name) :
    key.elementNameD = name := by
  have hNames : key.namesElement = true := by
    rcases key with items | inner | s
    · cases h
    · cases h
    · cases s <;> first | rfl | cases h
  exact Except.ok.inj ((elementName_eq_of_namesElement hNames).symm.trans h)

/-- What a value is made of: itself, and what the items of a sequence and the values of a mapping are
made of.  Keys are not part of it. -/
inductive Value.Reaches : Value → Value → Prop
  | refl (value : Value) :
      Reaches value value
  | item {items : List Value} {item part : Value} :
      item ∈ items → Reaches item part → Reaches (.sequence items) part
  | entry {entries : List (Value × Value)} {key value part : Value} :
      (key, value) ∈ entries → Reaches value part → Reaches (.mapping entries) part

mutual

/-- The keys of all mappings within a value, in the order in which they are met. -/
def Value.keysMet (value : Value) : List Value :=
  match value with
  | .sequence items => itemsKeysMet items
  | .mapping entries => entries.map Prod.fst ++ entriesKeysMet (orderedEntries entries)
  | .scalar _ => []
termination_by sizeOf value
decreasing_by
  · simp
  · have := entriesWeight_orderedEntries entries
    simp only [Value.mapping.sizeOf_spec]
    omega

/-- The keys met in one item after the other. -/
def itemsKeysMet (items : List Value) : List Value :=
  match items with
  | [] => []
  | item :: rest => item.keysMet ++ itemsKeysMet rest
termination_by sizeOf items

/-- The keys met in the value of one entry after the other. -/
def entriesKeysMet (entries : List (String × Value)) : List Value :=
  match entries with
  | [] => []
  | (_, value) :: rest => value.keysMet ++ entriesKeysMet rest
termination_by entriesWeight entries
decreasing_by
  all_goals simp only [entriesWeight]
  all_goals omega

end

/-- Whether a result fails at the first of some keys that names no element, and only there. -/
def FailsAtFirst {α : Type} (keys : List Value) (result : Except UnsupportedKey α) : Prop :=
  match firstUnsupported keys with
  | none => ∃ x, result = .ok x
  | some key => result = .error ⟨key.reportedType⟩

section FailsAtFirst

variable {α β : Type}

theorem failsAtFirst_ok (x : α) :
    FailsAtFirst [] (.ok x) :=
  ⟨x, rfl⟩

theorem FailsAtFirst.bind {keys others : List Value} {result : Except UnsupportedKey α}
    {next : α → Except UnsupportedKey β}
    (hResult : FailsAtFirst keys result)
    (hNext : ∀ x, result = .ok x → FailsAtFirst others (next x)) :
    FailsAtFirst (keys ++ others) (result >>= next) := by
  unfold FailsAtFirst firstUnsupported at *
  rw [List.find?_append]
  split at hResult
  · rename_i hNone
    obtain ⟨x, rfl⟩ := hResult
    rw [hNone]
    exact hNext x rfl
  · rename_i key hSome
    subst hResult
    rw [hSome]
    rfl

theorem FailsAtFirst.map {keys : List Value} {result : Except UnsupportedKey α}
    (hResult : FailsAtFirst keys result) (f : α → β) :
    FailsAtFirst keys (result >>= fun x => pure (f x)) := by
  have h := hResult.bind fun x _ => failsAtFirst_ok (f x)
  rw [List.append_nil] at h
  exact h

theorem FailsAtFirst.exists_eq_ok_iff {keys : List Value} {result : Except UnsupportedKey α}
    (hResult : FailsAtFirst keys result) :
    (∃ x, result = .ok x) ↔ firstUnsupported keys = none := by
  unfold FailsAtFirst at hResult
  split at hResult
  · rename_i hNone
    exact ⟨fun _ => hNone, fun _ => hResult⟩
  · rename_i key hSome
    rw [hResult, hSome]
    simp

theorem FailsAtFirst.exists_key_of_eq_error {keys : List Value} {result : Except UnsupportedKey α}
    {e : UnsupportedKey} (hResult : FailsAtFirst keys result) (hError : result = .error e) :
    ∃ key, firstUnsupported keys = some key ∧ e = ⟨key.reportedType⟩ := by
  unfold FailsAtFirst at hResult
  split at hResult
  · obtain ⟨x, rfl⟩ := hResult
    cases hError
  · rename_i key hSome
    rw [hResult] at hError
    cases hError
    exact ⟨key, hSome, rfl⟩

theorem failsAtFirst_elementName (key : Value) :
    FailsAtFirst [key] key.elementName := by
  unfold FailsAtFirst firstUnsupported
  rcases key with items | entries | s
  · rfl
  · rfl
  · cases s <;> simp [Value.namesElement, Value.elementName, Value.typeName, Scalar.typeName,
      Value.reportedType]

theorem failsAtFirst_nameEntries (entries : List (Value × Value)) :
    FailsAtFirst (entries.map Prod.fst) (nameEntries entries) := by
  induction entries with
  | nil => exact failsAtFirst_ok []
  | cons entry rest ih =>
      obtain ⟨key, value⟩ := entry
      refine (failsAtFirst_elementName key).bind fun name _ => ?_
      exact ih.map fun named => (name, value) :: named

end FailsAtFirst

/-- The names that entries get are those of their keys. -/
theorem eq_map_of_nameEntries_eq_ok {entries : List (Value × Value)}
    {named : List (String × Value)} (h : nameEntries entries = .ok named) :
    named = entries.map fun entry => (entry.1.elementNameD, entry.2) := by
  induction entries generalizing named with
  | nil =>
      cases h
      rfl
  | cons entry rest ih =>
      obtain ⟨key, value⟩ := entry
      rw [nameEntries] at h
      cases hName : key.elementName with
      | error e =>
          rw [hName] at h
          cases h
      | ok name =>
          cases hRest : nameEntries rest with
          | error e =>
              rw [hName, hRest] at h
              cases h
          | ok others =>
              rw [hName, hRest] at h
              cases h
              rw [ih hRest, List.map_cons, elementNameD_eq_of_elementName_eq_ok hName]

/-- The items of a sequence have a general name if no entry names them. -/
theorem itemElementName_eq (name : String) :
    itemElementName name = if name = "" then "element" else name := by
  simp only [itemElementName, String.isEmpty_iff]

theorem rendition_eq_shown (s : Scalar) :
    s.rendition = s.shown := by
  cases s <;> rfl

theorem outlineUnder_scalar (name : String) (s : Scalar) :
    (Value.scalar s).outlineUnder name = .ok [.text s.rendition s] := by
  rw [Value.outlineUnder, rendition_eq_shown]

theorem outlineUnder_sequence (name : String) (items : List Value) :
    (Value.sequence items).outlineUnder name = outlineItems (itemElementName name) items := by
  rw [Value.outlineUnder, itemElementName_eq]

/-- The outline of a mapping is that of its ordered entries, if all its keys name elements. -/
theorem outlineUnder_mapping (name : String) (entries : List (Value × Value)) :
    (Value.mapping entries).outlineUnder name =
      nameEntries entries >>= fun _ => outlineEntries (orderedEntries entries) := by
  have hNamed := failsAtFirst_nameEntries entries
  rw [Value.outlineUnder]
  unfold FailsAtFirst at hNamed
  split at hNamed
  · rename_i hNone
    obtain ⟨named, hNamed⟩ := hNamed
    rw [hNone, hNamed]
    rfl
  · rename_i key hSome
    rw [hSome, hNamed]
    rfl

/-- The items of a sequence stand in place of the entry that holds it, and an element for every other
entry. -/
theorem outlineEntries_cons (name : String) (value : Value) (rest : List (String × Value)) :
    outlineEntries ((name, value) :: rest) =
      if value.isSequence then do
        let parts ← value.outlineUnder name
        return parts ++ (← outlineEntries rest)
      else do
        let parts ← value.outlineUnder ""
        return .element name parts :: (← outlineEntries rest) := by
  cases value with
  | sequence items =>
      rw [outlineEntries]
      rfl
  | mapping entries =>
      rw [outlineEntries]
      · rfl
      · rintro items ⟨⟩
  | scalar s =>
      rw [outlineEntries]
      · rfl
      · rintro items ⟨⟩

mutual

/-- The outline of a value fails at the first unsupported key that is met, and only there. -/
theorem failsAtFirst_outlineUnder (name : String) (value : Value) :
    FailsAtFirst value.keysMet (value.outlineUnder name) := by
  match value with
  | .sequence items =>
      rw [Value.keysMet, outlineUnder_sequence]
      exact failsAtFirst_outlineItems (itemElementName name) items
  | .mapping entries =>
      rw [Value.keysMet, outlineUnder_mapping]
      exact (failsAtFirst_nameEntries entries).bind fun _ _ =>
        failsAtFirst_outlineEntries (orderedEntries entries)
  | .scalar s =>
      rw [Value.keysMet, outlineUnder_scalar]
      exact failsAtFirst_ok _
termination_by sizeOf value
decreasing_by
  · simp
  · have := entriesWeight_orderedEntries entries
    simp only [Value.mapping.sizeOf_spec]
    omega

theorem failsAtFirst_outlineItems (name : String) (items : List Value) :
    FailsAtFirst (itemsKeysMet items) (outlineItems name items) := by
  match items with
  | [] =>
      rw [itemsKeysMet, outlineItems]
      exact failsAtFirst_ok []
  | item :: rest =>
      rw [itemsKeysMet, outlineItems]
      refine (failsAtFirst_outlineUnder "" item).bind fun parts _ => ?_
      exact (failsAtFirst_outlineItems name rest).map fun others =>
        Outline.element name parts :: others
termination_by sizeOf items

theorem failsAtFirst_outlineEntries (entries : List (String × Value)) :
    FailsAtFirst (entriesKeysMet entries) (outlineEntries entries) := by
  match entries with
  | [] =>
      rw [entriesKeysMet, outlineEntries]
      exact failsAtFirst_ok []
  | (name, value) :: rest =>
      have hRest := failsAtFirst_outlineEntries rest
      rw [entriesKeysMet, outlineEntries_cons]
      split
      · refine (failsAtFirst_outlineUnder name value).bind fun parts _ => ?_
        exact hRest.map fun others => parts ++ others
      · refine (failsAtFirst_outlineUnder "" value).bind fun parts _ => ?_
        exact hRest.map fun others => Outline.element name parts :: others
termination_by entriesWeight entries
decreasing_by
  all_goals simp only [entriesWeight]
  all_goals omega

end

theorem mem_itemsKeysMet_iff {items : List Value} {key : Value} :
    key ∈ itemsKeysMet items ↔ ∃ item ∈ items, key ∈ item.keysMet := by
  induction items with
  | nil => simp [itemsKeysMet]
  | cons item rest ih => simp [itemsKeysMet, ih]

theorem mem_entriesKeysMet_iff {entries : List (String × Value)} {key : Value} :
    key ∈ entriesKeysMet entries ↔ ∃ entry ∈ entries, key ∈ entry.2.keysMet := by
  induction entries with
  | nil => simp [entriesKeysMet]
  | cons entry rest ih =>
      obtain ⟨name, value⟩ := entry
      simp [entriesKeysMet, ih]

/-- Naming and sorting keep the values of entries. -/
theorem mem_entriesKeysMet_orderedEntries_iff {entries : List (Value × Value)} {key : Value} :
    key ∈ entriesKeysMet (orderedEntries entries) ↔ ∃ entry ∈ entries, key ∈ entry.2.keysMet := by
  rw [mem_entriesKeysMet_iff, orderedEntries]
  simp only [(sortEntries_perm _).mem_iff, List.mem_map, exists_exists_and_eq_and]

theorem Value.Reaches.mem_keysMet {value : Value} {entries : List (Value × Value)} {key : Value}
    (hReaches : value.Reaches (.mapping entries)) (hKey : key ∈ entries.map Prod.fst) :
    key ∈ value.keysMet := by
  generalize hPart : Value.mapping entries = part at hReaches
  induction hReaches with
  | refl value =>
      subst hPart
      rw [Value.keysMet]
      exact List.mem_append_left _ hKey
  | item hItem _ ih =>
      rw [Value.keysMet, mem_itemsKeysMet_iff]
      exact ⟨_, hItem, ih hPart⟩
  | entry hEntry _ ih =>
      rw [Value.keysMet]
      exact List.mem_append_right _
        (mem_entriesKeysMet_orderedEntries_iff.2 ⟨_, hEntry, ih hPart⟩)

theorem exists_reaches_of_mem_keysMet {value key : Value} (hKey : key ∈ value.keysMet) :
    ∃ entries, value.Reaches (.mapping entries) ∧ key ∈ entries.map Prod.fst := by
  match value with
  | .sequence items =>
      rw [Value.keysMet, mem_itemsKeysMet_iff] at hKey
      obtain ⟨item, hItem, hWithin⟩ := hKey
      have := List.sizeOf_lt_of_mem hItem
      obtain ⟨entries, hReaches, hMem⟩ := exists_reaches_of_mem_keysMet hWithin
      exact ⟨entries, .item hItem hReaches, hMem⟩
  | .mapping entries =>
      rw [Value.keysMet, List.mem_append, mem_entriesKeysMet_orderedEntries_iff] at hKey
      rcases hKey with hOwn | ⟨⟨other, part⟩, hEntry, hWithin⟩
      · exact ⟨entries, .refl _, hOwn⟩
      · have := List.sizeOf_lt_of_mem hEntry
        obtain ⟨inner, hReaches, hMem⟩ := exists_reaches_of_mem_keysMet hWithin
        exact ⟨inner, .entry hEntry hReaches, hMem⟩
  | .scalar s =>
      rw [Value.keysMet] at hKey
      cases hKey
termination_by sizeOf value
decreasing_by
  · simp only [Value.sequence.sizeOf_spec]
    omega
  · simp only [Value.mapping.sizeOf_spec, Prod.mk.sizeOf_spec] at *
    omega

/-- No key that is met is unsupported exactly if none of a mapping within the value is. -/
theorem firstUnsupported_keysMet_eq_none_iff (value : Value) :
    firstUnsupported value.keysMet = none ↔
      ∀ entries, value.Reaches (.mapping entries) →
        ∀ entry ∈ entries, entry.1.namesElement = true := by
  simp only [firstUnsupported, List.find?_eq_none, Bool.not_eq_true', Bool.not_eq_false]
  constructor
  · intro hAll entries hReaches entry hEntry
    exact hAll entry.1 (hReaches.mem_keysMet (List.mem_map_of_mem hEntry))
  · intro hAll key hKey
    obtain ⟨entries, hReaches, hMem⟩ := exists_reaches_of_mem_keysMet hKey
    obtain ⟨entry, hEntry, rfl⟩ := List.mem_map.1 hMem
    exact hAll entries hReaches entry hEntry

end CborPath
