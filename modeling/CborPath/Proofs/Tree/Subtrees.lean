import CborPath.Proofs.Tree.Text

/-!
# Equal subtrees

Two nodes, of one tree or of two, may have the same subtree: the same kind, name and value, and the
same outline below them.  In trees that have been built the two subtrees then agree node by node: what
stands a number of places after the one node and what stands as many places after the other have the
same subtree again, up to the end of the subtrees.
-/

namespace CborPath

theorem partPlaces_add (n start : Nat) (forest : List Outline) :
    partPlaces (n + start) forest = (partPlaces start forest).map (n + ·) := by
  induction forest generalizing start with
  | nil => rfl
  | cons part rest ih => rw [partPlaces, partPlaces, List.map_cons, Nat.add_assoc, ih]

namespace Tree

/-- Whether two nodes have the same subtree, as an ordered tree of kinds, names and values. -/
structure SameSubtree (t : Tree) (n : NodeId) (t' : Tree) (n' : NodeId) : Prop where
  kind_eq : (t.node n).kind = (t'.node n').kind
  name_eq : (t.node n).name = (t'.node n').name
  value_eq : (t.node n).value = (t'.node n').value
  below_eq : t.outlineBelow n = t'.outlineBelow n'

/-- Whether two nodes are alike and hold the same forest, each in its own run of places. -/
structure Twins (t : Tree) (n : Nat) (t' : Tree) (n' : Nat) (forest : List Outline) : Prop where
  kind_eq : (t.node n).kind = (t'.node n').kind
  name_eq : (t.node n).name = (t'.node n').name
  value_eq : (t.node n).value = (t'.node n').value
  left : t.Spans n forest
  right : t'.Spans n' forest

theorem Spans.outlineBelow_eq {t : Tree} {n : Nat} {forest : List Outline} (h : t.Spans n forest) :
    t.outlineBelow n = forest := by
  have hSize := h.forestSize_le
  exact h.map_outlineWithin (by omega)

/-- Nodes of built trees that have the same subtree hold the same forest. -/
theorem SameSubtree.exists_twins {t t' : Tree} {all all' : List Outline} {n n' : Nat}
    (h : t.SameSubtree n t' n') (hTree : t.Depicts all) (hTree' : t'.Depicts all')
    (hId : n < t.size) (hId' : n' < t'.size) :
    ∃ forest, t.Twins n t' n' forest := by
  obtain ⟨forest, hSpans⟩ := hTree.exists_spans hId
  obtain ⟨forest', hSpans'⟩ := hTree'.exists_spans hId'
  have hSame := h.below_eq
  rw [hSpans.outlineBelow_eq, hSpans'.outlineBelow_eq] at hSame
  subst hSame
  exact ⟨forest, h.kind_eq, h.name_eq, h.value_eq, hSpans, hSpans'⟩

section Twins

variable {t t' : Tree} {n n' : Nat} {forest : List Outline}

theorem Twins.innerText_eq (h : t.Twins n t' n' forest) :
    t.innerText n = t'.innerText n' := by
  rw [h.left.innerText_eq, h.right.innerText_eq, h.kind_eq, h.name_eq]

theorem Twins.content?_eq (h : t.Twins n t' n' forest) :
    t.content? n = t'.content? n' := by
  rw [h.left.content?_eq, h.right.content?_eq, h.kind_eq, h.value_eq]

/-- The nodes of a part that two nodes hold are twins. -/
theorem Twins.part {before after : List Outline} {part : Outline}
    (h : t.Twins n t' n' (before ++ part :: after)) :
    t.Twins (n + 1 + forestSize before) t' (n' + 1 + forestSize before) part.parts := by
  have hSited : t.Sited (n + 1 + forestSize before) n before part after := ⟨h.left, rfl⟩
  have hSited' : t'.Sited (n' + 1 + forestSize before) n' before part after := ⟨h.right, rfl⟩
  refine ⟨?_, ?_, ?_, hSited.spans_parts, hSited'.spans_parts⟩ <;>
  · rw [hSited.node_eq, hSited'.node_eq]
    rfl

/-- The nodes that stand equally many places after twins, within what these hold, are twins. -/
theorem Twins.exists_within {n n' offset : Nat} {forest : List Outline}
    (h : t.Twins n t' n' forest) (hOffset : offset ≤ forestSize forest) :
    ∃ parts, t.Twins (n + offset) t' (n' + offset) parts ∧
      offset + forestSize parts ≤ forestSize forest := by
  cases offset with
  | zero => exact ⟨forest, h, by omega⟩
  | succ inner =>
      obtain ⟨before, part, after, hEq, hBefore, hWithin⟩ := exists_part_of_lt_forestSize hOffset
      rw [Outline.size_eq] at hWithin
      rw [hEq] at h
      obtain ⟨parts, hTwins, hEnd⟩ := Twins.exists_within h.part
        (show inner - forestSize before ≤ forestSize part.parts by omega)
      have hLeft : n + 1 + forestSize before + (inner - forestSize before) = n + (inner + 1) := by
        omega
      have hRight : n' + 1 + forestSize before + (inner - forestSize before) = n' + (inner + 1) := by
        omega
      rw [hLeft, hRight] at hTwins
      refine ⟨parts, hTwins, ?_⟩
      rw [hEq, forestSize_append, forestSize_cons]
      omega
termination_by forestSize forest
decreasing_by
  rw [hEq, forestSize_append, forestSize_cons]
  omega

end Twins

end Tree

end CborPath
