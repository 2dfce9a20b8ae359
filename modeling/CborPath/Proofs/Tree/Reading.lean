import CborPath.Proofs.Document.Sorting
import CborPath.Proofs.Tree.Siblings

/-!
# Reading trees

What a tree says is read off by going from each node to its first child and to its next sibling.  A
tree that has been built reads as the outline of its document, and building fails exactly where some
key of the document names no element.
-/

namespace CborPath

theorem Outline.eq_of_kind_eq {part other : Outline} (hKind : part.kind = other.kind)
    (hName : part.name = other.name) (hValue : part.value = other.value)
    (hParts : part.parts = other.parts) :
    part = other := by
  cases part <;> cases other <;>
    simp_all [Outline.kind, Outline.name, Outline.value, Outline.parts]

namespace Tree

/-- The outline of a node and of what is below it, down to the given depth. -/
def outlineWithin (t : Tree) : Nat → NodeId → Outline
  | 0, id => .element (t.node id).name []
  | bound + 1, id =>
      match (t.node id).value with
      | some value => .text (t.node id).name value
      | none => .element (t.node id).name ((t.children id).map (outlineWithin t bound))

/-- The outline of everything below a node. -/
def outlineBelow (t : Tree) (id : NodeId) : List Outline :=
  (t.children id).map (t.outlineWithin t.size)

/-- The outline of a tree. -/
def outline (t : Tree) : List Outline :=
  t.outlineBelow root

/-- Whether the nodes met from a place on, by way of first children and next siblings, are those of a
forest. -/
inductive Reads (t : Tree) : Option NodeId → List Outline → Prop
  | nil :
      Reads t none []
  | cons {id : NodeId} {part : Outline} {rest : List Outline} :
      (t.node id).kind = part.kind →
      (t.node id).name = part.name →
      (t.node id).value = part.value →
      Reads t (t.node id).firstChild part.parts →
      Reads t (t.node id).nextSibling rest →
      Reads t (some id) (part :: rest)

section Reads

variable {t : Tree} {first : Option NodeId} {forest others : List Outline}

/-- A tree reads in only one way. -/
theorem Reads.unique (h : t.Reads first forest) (h' : t.Reads first others) :
    forest = others := by
  induction h generalizing others with
  | nil =>
      cases h'
      rfl
  | cons hKind hName hValue _ _ ihParts ihRest =>
      obtain _ | ⟨hKind', hName', hValue', hParts, hRest⟩ := h'
      rw [ihRest hRest, Outline.eq_of_kind_eq (hKind.symm.trans hKind') (hName.symm.trans hName')
        (hValue.symm.trans hValue') (ihParts hParts)]

/-- A layout reads as its forest, and then as what follows it. -/
theorem Lays.reads {parent depth start : Nat} {previous next : Option NodeId}
    (h : t.Lays parent depth previous next start forest) (hNext : t.Reads next others) :
    t.Reads (firstPlace next start forest) (forest ++ others) := by
  induction h generalizing others with
  | nil => exact hNext
  | cons hOwn _ _ ihParts ihRest =>
      refine .cons ?_ ?_ ?_ ?_ ?_
      · rw [hOwn]
        rfl
      · rw [hOwn]
        rfl
      · rw [hOwn]
        rfl
      · rw [hOwn]
        have hParts := ihParts .nil
        rwa [List.append_nil] at hParts
      · rw [hOwn]
        exact ihRest hNext

theorem Depicts.reads_iff (h : t.Depicts forest) (parts : List Outline) :
    t.Reads (t.node root).firstChild parts ↔ parts = forest := by
  have hReads : t.Reads (t.node root).firstChild forest := by
    rw [h.firstChild]
    simpa using h.below.reads .nil
  constructor
  · intro hParts
    exact hParts.unique hReads
  · rintro rfl
    exact hReads

end Reads

/-- What is found at the places of the parts of a forest, if it is found part by part. -/
theorem map_partPlaces {β : Type} {f : Nat → β} {g : Outline → β} {start : Nat}
    {forest : List Outline}
    (h : ∀ before part after, forest = before ++ part :: after →
      f (start + forestSize before) = g part) :
    (partPlaces start forest).map f = forest.map g := by
  induction forest generalizing start with
  | nil => rfl
  | cons part rest ih =>
      have hPart : f start = g part := by
        simpa using h [] part rest rfl
      have hRest : (partPlaces (start + part.size) rest).map f = rest.map g := by
        refine ih fun before later after hEq => ?_
        have := h (part :: before) later after (by rw [hEq, List.cons_append])
        rwa [forestSize, ← Nat.add_assoc] at this
      rw [partPlaces, List.map_cons, List.map_cons, hPart, hRest]

/-- Within a bound that no part exceeds, what is read below a node is what it holds. -/
theorem Spans.map_outlineWithin {t : Tree} {id bound : Nat} {forest : List Outline}
    (h : t.Spans id forest) (hBound : forestSize forest ≤ bound) :
    (t.children id).map (t.outlineWithin bound) = forest := by
  induction bound generalizing id forest with
  | zero =>
      rw [h.children_eq]
      cases forest with
      | nil => rfl
      | cons part rest =>
          rw [forestSize_cons] at hBound
          omega
  | succ bound ih =>
      rw [h.children_eq]
      refine (map_partPlaces fun before part after hForest => ?_).trans (List.map_id' forest)
      subst hForest
      have hSited : t.Sited (id + 1 + forestSize before) id before part after := ⟨h, rfl⟩
      rw [forestSize_append, forestSize_cons] at hBound
      have hParts := ih hSited.spans_parts (by omega)
      rw [outlineWithin, hSited.node_eq]
      cases part with
      | text name value => rfl
      | element name parts => exact congrArg (Outline.element name) hParts

theorem Depicts.outline_eq {t : Tree} {forest : List Outline} (h : t.Depicts forest) :
    t.outline = forest := by
  refine h.spans.map_outlineWithin ?_
  have := h.spans.forestSize_le
  omega

/-- Building fails at the first key that is met and names no element, and only there. -/
theorem failsAtFirst_build (value : Value) :
    FailsAtFirst value.keysMet (build value) := by
  have hOutline := failsAtFirst_outlineUnder "" value
  unfold FailsAtFirst at *
  split at hOutline
  · obtain ⟨forest, hForest⟩ := hOutline
    obtain ⟨t, hBuild, -⟩ := exists_depicts_of_outline_eq_ok hForest
    exact ⟨t, hBuild⟩
  · exact build_eq_error_of_outline_eq_error hOutline

/-- Building succeeds exactly on the documents whose keys all name elements, and the tree then reads
as the outline of the document, in which the entries of a mapping come in the order of the bytes of
their names.  Otherwise it fails at the first key that is met and names no element. -/
theorem build_reads_outline (value : Value) :
    ((∃ t, build value = .ok t) ↔
      ∀ entries, value.Reaches (.mapping entries) →
        ∀ entry ∈ entries, entry.1.namesElement = true) ∧
    (∀ t, build value = .ok t →
      ∃ forest, value.outline = .ok forest ∧
        (∀ parts, t.Reads (t.node root).firstChild parts ↔ parts = forest) ∧
        t.outline = forest) ∧
    (∀ e, build value = .error e →
      ∃ key, firstUnsupported value.keysMet = some key ∧ e = ⟨key.reportedType⟩) ∧
    ∀ entries, SortedByName entries (sortEntries entries) := by
  have hFails := failsAtFirst_build value
  refine ⟨?_, fun t hBuild => ?_, fun e hBuild => ?_, sortedByName_sortEntries⟩
  · rw [hFails.exists_eq_ok_iff, firstUnsupported_keysMet_eq_none_iff]
  · obtain ⟨forest, hForest, hDepicts⟩ := exists_depicts_of_build_eq_ok hBuild
    exact ⟨forest, hForest, hDepicts.reads_iff, hDepicts.outline_eq⟩
  · exact hFails.exists_key_of_eq_error hBuild

end Tree

end CborPath
