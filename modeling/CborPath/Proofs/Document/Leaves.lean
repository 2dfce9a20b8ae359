import CborPath.Proofs.Document.Keys
import CborPath.Proofs.Outcome

/-!
# Leaves

The texts of an outline, each with its scalar.  Those of a document's outline are the renditions of
the scalars that are reached in the document without going through a mapping key.
-/

namespace CborPath

mutual

/-- The texts of a part, in order. -/
def Outline.leaves : Outline → List (String × Scalar)
  | .text name value => [(name, value)]
  | .element _ parts => forestLeaves parts

/-- The texts of a forest, in order. -/
def forestLeaves : List Outline → List (String × Scalar)
  | [] => []
  | part :: rest => part.leaves ++ forestLeaves rest

end

theorem forestLeaves_append (xs ys : List Outline) :
    forestLeaves (xs ++ ys) = forestLeaves xs ++ forestLeaves ys := by
  induction xs with
  | nil => rw [forestLeaves, List.nil_append, List.nil_append]
  | cons part rest ih =>
      rw [List.cons_append, forestLeaves, forestLeaves, ih, List.append_assoc]

theorem mem_forestLeaves_of_mem_leaves {before after : List Outline} {part : Outline}
    {leaf : String × Scalar} (h : leaf ∈ part.leaves) :
    leaf ∈ forestLeaves (before ++ part :: after) := by
  rw [forestLeaves_append, forestLeaves]
  exact List.mem_append_right _ (List.mem_append_left _ h)

/-- Whether a leaf is the rendition of a scalar that is reached in a value. -/
def Value.Renders (value : Value) (leaf : String × Scalar) : Prop :=
  value.Reaches (.scalar leaf.2) ∧ leaf.1 = leaf.2.rendition

/-- Naming and sorting keep the values of entries. -/
theorem exists_mem_of_mem_orderedEntries {entries : List (Value × Value)}
    {named : String × Value} (h : named ∈ orderedEntries entries) :
    ∃ key, (key, named.2) ∈ entries := by
  rw [orderedEntries, (sortEntries_perm _).mem_iff, List.mem_map] at h
  obtain ⟨entry, hEntry, rfl⟩ := h
  exact ⟨entry.1, hEntry⟩

mutual

/-- The leaves of a value's outline are the renditions of the scalars in it. -/
theorem renders_outlineUnder (name : String) (value : Value) :
    Yields (value.outlineUnder name) fun forest =>
      ∀ leaf ∈ forestLeaves forest, value.Renders leaf := by
  match value with
  | .sequence items =>
      rw [outlineUnder_sequence]
      refine (renders_outlineItems (itemElementName name) items).mono fun forest h leaf hLeaf => ?_
      obtain ⟨item, hItem, hReaches, hText⟩ := h leaf hLeaf
      exact ⟨.item hItem hReaches, hText⟩
  | .mapping entries =>
      rw [outlineUnder_mapping]
      refine yields_bind fun _ => ?_
      refine (renders_outlineEntries (orderedEntries entries)).mono fun forest h leaf hLeaf => ?_
      obtain ⟨entry, hEntry, hReaches, hText⟩ := h leaf hLeaf
      obtain ⟨key, hKey⟩ := exists_mem_of_mem_orderedEntries hEntry
      exact ⟨.entry hKey hReaches, hText⟩
  | .scalar s =>
      rw [outlineUnder_scalar]
      refine yields_ok fun leaf hLeaf => ?_
      rw [forestLeaves, forestLeaves, List.append_nil, Outline.leaves, List.mem_singleton] at hLeaf
      subst hLeaf
      exact ⟨.refl _, rfl⟩
termination_by sizeOf value
decreasing_by
  · simp
  · have := entriesWeight_orderedEntries entries
    simp only [Value.mapping.sizeOf_spec]
    omega

theorem renders_outlineItems (name : String) (items : List Value) :
    Yields (outlineItems name items) fun forest =>
      ∀ leaf ∈ forestLeaves forest, ∃ item ∈ items, item.Renders leaf := by
  match items with
  | [] =>
      rw [outlineItems]
      refine yields_ok fun leaf hLeaf => ?_
      rw [forestLeaves] at hLeaf
      cases hLeaf
  | item :: rest =>
      rw [outlineItems]
      refine (renders_outlineUnder "" item).bind fun parts hParts => ?_
      refine (renders_outlineItems name rest).bind fun others hOthers => ?_
      refine yields_ok fun leaf hLeaf => ?_
      rw [forestLeaves, Outline.leaves, List.mem_append] at hLeaf
      rcases hLeaf with hHere | hLater
      · exact ⟨item, List.mem_cons_self, hParts leaf hHere⟩
      · obtain ⟨other, hOther, hRenders⟩ := hOthers leaf hLater
        exact ⟨other, List.mem_cons_of_mem _ hOther, hRenders⟩
termination_by sizeOf items

theorem renders_outlineEntries (entries : List (String × Value)) :
    Yields (outlineEntries entries) fun forest =>
      ∀ leaf ∈ forestLeaves forest, ∃ entry ∈ entries, entry.2.Renders leaf := by
  match entries with
  | [] =>
      rw [outlineEntries]
      refine yields_ok fun leaf hLeaf => ?_
      rw [forestLeaves] at hLeaf
      cases hLeaf
  | (name, value) :: rest =>
      -- Spliced or not, the leaves of an entry stand before those of the others.
      have hJoined : ∀ parts others : List Outline,
          (∀ leaf ∈ forestLeaves parts, value.Renders leaf) →
          (∀ leaf ∈ forestLeaves others, ∃ entry ∈ rest, entry.2.Renders leaf) →
          ∀ leaf ∈ forestLeaves parts ++ forestLeaves others,
            ∃ entry ∈ (name, value) :: rest, entry.2.Renders leaf := by
        intro parts others hParts hOthers leaf hLeaf
        rcases List.mem_append.1 hLeaf with hHere | hLater
        · exact ⟨(name, value), List.mem_cons_self, hParts leaf hHere⟩
        · obtain ⟨other, hOther, hRenders⟩ := hOthers leaf hLater
          exact ⟨other, List.mem_cons_of_mem _ hOther, hRenders⟩
      have hRest := renders_outlineEntries rest
      rw [outlineEntries_cons]
      split
      · refine (renders_outlineUnder name value).bind fun parts hParts => ?_
        refine hRest.bind fun others hOthers => yields_ok ?_
        rw [forestLeaves_append]
        exact hJoined parts others hParts hOthers
      · refine (renders_outlineUnder "" value).bind fun parts hParts => ?_
        refine hRest.bind fun others hOthers => yields_ok ?_
        rw [forestLeaves, Outline.leaves]
        exact hJoined parts others hParts hOthers
termination_by entriesWeight entries
decreasing_by
  all_goals simp only [entriesWeight]
  all_goals omega

end

end CborPath
