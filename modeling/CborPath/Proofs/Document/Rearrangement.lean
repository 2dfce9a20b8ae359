import CborPath.Proofs.Document.Keys
import CborPath.Proofs.Document.Sorting
import CborPath.Proofs.Outcome

/-!
# Rearranged documents

The entries of a mapping may come in any order.  A document in which they come in another one, at
any depth, has the same outline, as long as entries whose keys give the same name keep their order
among themselves: sorting by name cannot tell the two apart.
-/

namespace CborPath

/-- The entries whose keys give a name, in their order. -/
def entriesNamed (name : String) (entries : List (Value × Value)) : List (Value × Value) :=
  entries.filter fun entry => entry.1.elementName.toOption = some name

/-- Whether some entries are others in another order, those of one name in the same. -/
structure KeepsNameOrder (entries others : List (Value × Value)) : Prop where
  perm : entries.Perm others
  stable : ∀ name, entriesNamed name entries = entriesNamed name others

/-- Whether a value is another with the entries of its mappings in another order, at any depth, those
of one name in the same.  The keys stay as they are, also where they hold mappings themselves. -/
inductive Value.Rearranges : Value → Value → Prop
  | scalar (s : Scalar) :
      Rearranges (.scalar s) (.scalar s)
  | sequence {items others : List Value} :
      List.Forall₂ Rearranges items others →
      Rearranges (.sequence items) (.sequence others)
  | mapping {entries rearranged others : List (Value × Value)} :
      entries.map Prod.fst = rearranged.map Prod.fst →
      List.Forall₂ Rearranges (entries.map Prod.snd) (rearranged.map Prod.snd) →
      KeepsNameOrder rearranged others →
      Rearranges (.mapping entries) (.mapping others)

section KeepsNameOrder

variable {entries others : List (Value × Value)} {first second : Value × Value}

theorem KeepsNameOrder.refl (entries : List (Value × Value)) :
    KeepsNameOrder entries entries :=
  ⟨.refl entries, fun _ => rfl⟩

theorem KeepsNameOrder.trans {middle : List (Value × Value)} (h : KeepsNameOrder entries middle)
    (h' : KeepsNameOrder middle others) :
    KeepsNameOrder entries others :=
  ⟨h.perm.trans h'.perm, fun name => (h.stable name).trans (h'.stable name)⟩

/-- Two entries that stand side by side may change places if their names differ. -/
theorem keepsNameOrder_swap
    (h : first.1.elementName.toOption ≠ second.1.elementName.toOption) :
    KeepsNameOrder (first :: second :: entries) (second :: first :: entries) := by
  refine ⟨.swap _ _ _, fun name => ?_⟩
  by_cases hFirst : first.1.elementName.toOption = some name
  · have hSecond : second.1.elementName.toOption ≠ some name := fun hEq => h (hFirst.trans hEq.symm)
    simp [entriesNamed, hFirst, hSecond]
  · simp [entriesNamed, List.filter_cons, hFirst]

theorem KeepsNameOrder.cons (entry : Value × Value) (h : KeepsNameOrder entries others) :
    KeepsNameOrder (entry :: entries) (entry :: others) := by
  refine ⟨h.perm.cons entry, fun name => ?_⟩
  have := h.stable name
  simp only [entriesNamed, List.filter_cons] at *
  rw [this]

/-- Named as they stand, the entries of one name are those whose keys give it. -/
theorem filter_map_elementNameD (h : ∀ entry ∈ entries, entry.1.namesElement = true)
    (name : String) :
    ((entries.map fun entry => (entry.1.elementNameD, entry.2)).filter fun entry =>
        entry.1 = name) =
      (entriesNamed name entries).map fun entry => (entry.1.elementNameD, entry.2) := by
  rw [List.filter_map, entriesNamed]
  refine congrArg _ (List.filter_congr fun entry hEntry => ?_)
  simp [elementName_eq_of_namesElement (h entry hEntry), Except.toOption]

theorem KeepsNameOrder.orderedEntries_eq (h : KeepsNameOrder entries others)
    (hNames : ∀ entry ∈ entries, entry.1.namesElement = true) :
    orderedEntries entries = orderedEntries others := by
  refine sortEntries_eq_of_filter_eq fun name => ?_
  rw [filter_map_elementNameD hNames, h.stable,
    filter_map_elementNameD fun entry hEntry => hNames entry (h.perm.mem_iff.2 hEntry)]

end KeepsNameOrder

/-- Whether two values are sequences or not alike, and have the same outlines, if any. -/
structure Value.OutlinedAlike (value other : Value) : Prop where
  isSequence_eq : value.isSequence = other.isSequence
  outline : ∀ name, SameResult (value.outlineUnder name) (other.outlineUnder name)

section OutlinedAlike

theorem sameResult_outlineItems {items others : List Value}
    (h : List.Forall₂ Value.OutlinedAlike items others) (name : String) :
    SameResult (outlineItems name items) (outlineItems name others) := by
  induction h with
  | nil => exact .refl _
  | cons hItem _ ih =>
      rw [outlineItems, outlineItems]
      exact (hItem.outline "").bind fun parts => ih.bind fun rest => .refl _

theorem sameResult_outlineEntries {entries others : List (String × Value)}
    (h : List.Forall₂ (fun a b => a.1 = b.1 ∧ a.2.OutlinedAlike b.2) entries others) :
    SameResult (outlineEntries entries) (outlineEntries others) := by
  induction h with
  | nil => exact .refl _
  | @cons entry other rest rest' hEntry _ ih =>
      obtain ⟨name, value⟩ := entry
      obtain ⟨name', value'⟩ := other
      obtain ⟨rfl, hAlike⟩ := hEntry
      rw [outlineEntries_cons, outlineEntries_cons, hAlike.isSequence_eq]
      split
      · exact (hAlike.outline _).bind fun parts => ih.bind fun others => .refl _
      · exact (hAlike.outline _).bind fun parts => ih.bind fun others => .refl _

/-- Sorting keeps values beside those that are outlined alike. -/
theorem forall₂_orderedEntries {entries others : List (Value × Value)}
    (hKeys : entries.map Prod.fst = others.map Prod.fst)
    (hValues : List.Forall₂ Value.OutlinedAlike (entries.map Prod.snd) (others.map Prod.snd)) :
    List.Forall₂ (fun a b => a.1 = b.1 ∧ a.2.OutlinedAlike b.2)
      (orderedEntries entries) (orderedEntries others) := by
  refine forall₂_mergeSort ?_ fun a b c d hab hcd => by rw [hab.1, hcd.1]
  induction entries generalizing others with
  | nil =>
      obtain rfl := List.map_eq_nil_iff.1 hKeys.symm
      exact .nil
  | cons entry rest ih =>
      cases others with
      | nil => cases hKeys
      | cons other rest' =>
          obtain ⟨hKey, hRest⟩ := List.cons.inj hKeys
          obtain ⟨hValue, hOthers⟩ := List.forall₂_cons.1 hValues
          exact .cons ⟨congrArg Value.elementNameD hKey, hValue⟩ (ih hRest hOthers)

/-- A mapping has an outline if all its keys name elements, and then that of its ordered entries. -/
theorem outlineUnder_mapping_eq_ok_iff {name : String} {entries : List (Value × Value)}
    {forest : List Outline} :
    (Value.mapping entries).outlineUnder name = .ok forest ↔
      (∀ key ∈ entries.map Prod.fst, key.namesElement = true) ∧
        outlineEntries (orderedEntries entries) = .ok forest := by
  have hNames := (failsAtFirst_nameEntries entries).exists_eq_ok_iff
  simp only [firstUnsupported, List.find?_eq_none, Bool.not_eq_true', Bool.not_eq_false] at hNames
  rw [outlineUnder_mapping, bind_eq_ok_iff, exists_and_right, hNames]

/-- Mappings with the same keys whose values are outlined alike. -/
theorem sameResult_outlineUnder_mapping {entries others : List (Value × Value)}
    (hKeys : entries.map Prod.fst = others.map Prod.fst)
    (hValues : List.Forall₂ Value.OutlinedAlike (entries.map Prod.snd) (others.map Prod.snd))
    (name : String) :
    SameResult ((Value.mapping entries).outlineUnder name)
      ((Value.mapping others).outlineUnder name) := by
  intro forest
  rw [outlineUnder_mapping_eq_ok_iff, outlineUnder_mapping_eq_ok_iff, hKeys,
    sameResult_outlineEntries (forall₂_orderedEntries hKeys hValues) forest]

theorem KeepsNameOrder.sameResult_outlineUnder {entries others : List (Value × Value)}
    (h : KeepsNameOrder entries others) (name : String) :
    SameResult ((Value.mapping entries).outlineUnder name)
      ((Value.mapping others).outlineUnder name) := by
  intro forest
  simp only [outlineUnder_mapping_eq_ok_iff, List.forall_mem_map, ← h.perm.mem_iff]
  refine and_congr_right fun hNames => ?_
  rw [h.orderedEntries_eq hNames]

end OutlinedAlike

theorem sizeOf_map_snd_le (entries : List (Value × Value)) :
    sizeOf (entries.map Prod.snd) ≤ sizeOf entries := by
  induction entries with
  | nil => exact Nat.le_refl _
  | cons entry rest ih =>
      obtain ⟨key, value⟩ := entry
      simp only [List.map_cons, List.cons.sizeOf_spec, Prod.mk.sizeOf_spec]
      omega

mutual

/-- A rearranged value is outlined like the value. -/
theorem Value.Rearranges.outlinedAlike {value other : Value} :
    value.Rearranges other → value.OutlinedAlike other
  | .scalar s => ⟨rfl, fun _ => .refl _⟩
  | .sequence hItems => by
      refine ⟨rfl, fun name => ?_⟩
      rw [Value.outlineUnder, Value.outlineUnder]
      exact sameResult_outlineItems (forall₂_outlinedAlike hItems) _
  | @Value.Rearranges.mapping entries _ _ hKeys hValues hOrder => by
      have := sizeOf_map_snd_le entries
      refine ⟨rfl, fun name forest => ?_⟩
      rw [sameResult_outlineUnder_mapping hKeys (forall₂_outlinedAlike hValues) name forest]
      exact hOrder.sameResult_outlineUnder name forest
termination_by sizeOf value
decreasing_by
  · simp
  · simp only [Value.mapping.sizeOf_spec]
    omega

theorem forall₂_outlinedAlike {values others : List Value} :
    List.Forall₂ Value.Rearranges values others →
      List.Forall₂ Value.OutlinedAlike values others
  | .nil => .nil
  | .cons h hRest => .cons h.outlinedAlike (forall₂_outlinedAlike hRest)
termination_by sizeOf values

end

end CborPath
