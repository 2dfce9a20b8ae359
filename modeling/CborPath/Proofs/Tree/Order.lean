import CborPath.Proofs.Tree.Layout

/-!
# Document order

The places at and below a node run from its own to where the next node stands that is no deeper.
These runs are nested or apart, as depths alone show.  In a layout, what a node holds fills its run
exactly, and so does every part of it: the links of a node lead to where its run and those of its
neighbours begin.
-/

namespace CborPath

namespace Tree

/-- The first place after a node where a node stands that is not below it: in document order, the
next node that is no deeper, or the end of the array. -/
def stop (t : Tree) (id : NodeId) : Nat :=
  match (t.nodes.toList.drop (id + 1)).findIdx? fun data => data.depth ≤ (t.node id).depth with
  | some distance => id + 1 + distance
  | none => t.size

section Stop

variable {t : Tree} {id other stop : Nat}

theorem getElem_toList_nodes (h : id < t.nodes.toList.length) :
    t.nodes.toList[id] = t.node id := by
  rw [Array.length_toList] at h
  simp [node, h]

theorem length_toList_nodes (t : Tree) :
    t.nodes.toList.length = t.size :=
  Array.length_toList

/-- Where a run ends: at the first later node that is no deeper, or at the end of the array, where
the depth of the node that stands in is zero. -/
theorem stop_spec (h : id < t.size) :
    id < t.stop id ∧ t.stop id ≤ t.size ∧
      (∀ inner : Nat, id < inner → inner < t.stop id →
        (t.node id).depth < (t.node inner).depth) ∧
      (t.node (t.stop id)).depth ≤ (t.node id).depth := by
  have hLength : (t.nodes.toList.drop (id + 1)).length = t.size - (id + 1) := by
    rw [List.length_drop, length_toList_nodes]
  rw [Tree.stop]
  cases hFind : (t.nodes.toList.drop (id + 1)).findIdx? fun data =>
      data.depth ≤ (t.node id).depth with
  | none =>
      dsimp only
      rw [List.findIdx?_eq_none_iff] at hFind
      refine ⟨h, Nat.le_refl _, fun inner hLow hHigh => ?_, ?_⟩
      · have hMem : t.node inner ∈ t.nodes.toList.drop (id + 1) := by
          have hInner : inner - (id + 1) < (t.nodes.toList.drop (id + 1)).length := by
            omega
          have hGet := List.getElem_mem hInner
          rw [List.getElem_drop, getElem_toList_nodes] at hGet
          rwa [show id + 1 + (inner - (id + 1)) = inner by omega] at hGet
        simpa using hFind _ hMem
      · rw [node_of_size_le (Nat.le_refl _)]
        exact Nat.zero_le _
  | some distance =>
      dsimp only
      obtain ⟨hDistance, hHere, hBefore⟩ := List.findIdx?_eq_some_iff_getElem.1 hFind
      rw [List.getElem_drop, getElem_toList_nodes] at hHere
      refine ⟨by omega, by omega, fun inner hLow hHigh => ?_, by simpa using hHere⟩
      have hNot := hBefore (inner - (id + 1)) (by omega)
      rw [List.getElem_drop, getElem_toList_nodes,
        show id + 1 + (inner - (id + 1)) = inner by omega] at hNot
      simpa using hNot

theorem lt_stop (h : id < t.size) :
    id < t.stop id :=
  (stop_spec h).1

theorem stop_le_size (h : id < t.size) :
    t.stop id ≤ t.size :=
  (stop_spec h).2.1

/-- All nodes within a run are deeper than the first. -/
theorem depth_lt_of_lt_stop (hSize : id < t.size) (hLt : id < other) (hStop : other < t.stop id) :
    (t.node id).depth < (t.node other).depth :=
  (stop_spec hSize).2.2.1 other hLt hStop

/-- The node behind a run is no deeper than the first node of the run. -/
theorem depth_stop_le (h : id < t.size) :
    (t.node (t.stop id)).depth ≤ (t.node id).depth :=
  (stop_spec h).2.2.2

theorem stop_eq (hLt : id < stop) (hSize : stop ≤ t.size)
    (hInside : ∀ inner : Nat, id < inner → inner < stop → (t.node id).depth < (t.node inner).depth)
    (hEnd : (t.node stop).depth ≤ (t.node id).depth) :
    t.stop id = stop := by
  have hId : id < t.size := by omega
  rcases Nat.lt_trichotomy (t.stop id) stop with hBefore | hSame | hBehind
  · have := hInside (t.stop id) (lt_stop hId) hBefore
    have := depth_stop_le hId
    omega
  · exact hSame
  · have := depth_lt_of_lt_stop hId hLt hBehind
    omega

/-- Runs are nested or apart. -/
theorem stop_le_stop (hSize : id < t.size) (hLt : id < other) (hStop : other < t.stop id) :
    t.stop other ≤ t.stop id := by
  have hOther : other < t.size := by
    have := stop_le_size hSize
    omega
  rcases Nat.lt_or_ge (t.stop id) (t.stop other) with hBehind | hLe
  · have := depth_lt_of_lt_stop hOther hStop hBehind
    have := depth_stop_le hSize
    have := depth_lt_of_lt_stop hSize hLt hStop
    omega
  · exact hLe

end Stop

section Spans

variable {t : Tree} {parent : NodeId} {depth start : Nat} {previous next : Option NodeId}
  {forest before after : List Outline} {part : Outline} {id : Nat}

/-- All nodes of a layout are at least as deep as those of its parts. -/
theorem Lays.depth_le (h : t.Lays parent depth previous next start forest) (hLow : start ≤ id)
    (hHigh : id < start + forestSize forest) :
    depth ≤ (t.node id).depth := by
  induction h with
  | nil =>
      rw [forestSize_nil] at hHigh
      omega
  | @cons parent depth previous next start part rest hOwn _ _ ihParts ihRest =>
      rw [forestSize_cons] at hHigh
      rw [Outline.size_eq] at ihRest
      rcases Nat.eq_or_lt_of_le hLow with rfl | hLater
      · rw [hOwn]
        exact Nat.le_refl _
      · by_cases hWithin : id < start + 1 + forestSize part.parts
        · exact Nat.le_of_succ_le (ihParts hLater hWithin)
        · exact ihRest (by omega) (by omega)

/-- Whether a node holds a forest that fills its run. -/
structure Spans (t : Tree) (id : Nat) (forest : List Outline) : Prop extends
    t.Holds id forest where
  lt_size : id < t.size
  stop_eq : t.stop id = id + 1 + forestSize forest

/-- The node of a part among its siblings. -/
structure Sited (t : Tree) (id parent : Nat) (before : List Outline) (part : Outline)
    (after : List Outline) : Prop where
  spans : t.Spans parent (before ++ part :: after)
  place_eq : id = parent + 1 + forestSize before

section Sited

variable {parent : Nat} (h : t.Sited id parent before part after)
include h

theorem Sited.node_eq :
    t.node id = part.node id ((t.node parent).depth + 1) (some parent)
      (lastPlace none (parent + 1) before) (firstPlace none (id + part.size) after) := by
  obtain ⟨hSpans, rfl⟩ := h
  obtain _ | ⟨hOwn, -, -⟩ := (lays_append_iff.1 hSpans.below).2
  exact hOwn

theorem Sited.parent_eq :
    (t.node id).parent = some parent := by
  rw [h.node_eq]
  rfl

theorem Sited.depth_eq :
    (t.node id).depth = (t.node parent).depth + 1 := by
  rw [h.node_eq]
  rfl

/-- A part fills the run of its own node. -/
theorem Sited.spans_parts :
    t.Spans id part.parts := by
  have hNode := h.node_eq
  have hDepth := h.depth_eq
  obtain ⟨hSpans, rfl⟩ := h
  obtain _ | ⟨-, hParts, hAfter⟩ := (lays_append_iff.1 hSpans.below).2
  have hStop := hSpans.stop_eq
  have hSize := stop_le_size hSpans.lt_size
  rw [forestSize_append, forestSize_cons] at hStop
  refine ⟨⟨?_, ?_, ?_⟩, by omega, stop_eq (by omega) (by omega) ?_ ?_⟩
  · rw [hNode]
    rfl
  · rw [hNode]
    rfl
  · rw [hDepth]
    exact hParts
  · intro inner hLow hHigh
    rw [hDepth]
    exact hParts.depth_le hLow hHigh
  · -- What stands behind the part is a sibling or what stands behind the parent's run.
    rw [hDepth, Nat.add_assoc _ 1, Nat.add_comm 1, ← Outline.size_eq]
    cases after with
    | nil =>
        have hEnd : parent + 1 + forestSize before + part.size = t.stop parent := by
          rw [hStop, forestSize_nil, Outline.size_eq]
          omega
        rw [hEnd]
        exact Nat.le_succ_of_le (depth_stop_le hSpans.lt_size)
    | cons sibling rest =>
        obtain _ | ⟨hSibling, -, -⟩ := hAfter
        rw [hSibling]
        exact Nat.le_refl _

theorem Sited.stop_eq :
    t.stop id = id + part.size := by
  rw [h.spans_parts.stop_eq, Outline.size_eq]
  omega

theorem Sited.stop_parent :
    t.stop parent = t.stop id + forestSize after := by
  rw [h.stop_eq, h.spans.stop_eq, forestSize_append, forestSize, h.place_eq]
  omega

end Sited

/-- A part before a node's part has its own node. -/
theorem Sited.sibling_before {parent : Nat} {earlier later : List Outline} {sibling : Outline}
    (h : t.Sited id parent (earlier ++ sibling :: later) part after) :
    t.Sited (parent + 1 + forestSize earlier) parent earlier sibling (later ++ part :: after) := by
  obtain ⟨hSpans, -⟩ := h
  rw [List.append_assoc, List.cons_append] at hSpans
  exact ⟨hSpans, rfl⟩

/-- A part after a node's part has its own node. -/
theorem Sited.sibling_after {parent : Nat} {earlier later : List Outline} {sibling : Outline}
    (h : t.Sited id parent before part (earlier ++ sibling :: later)) :
    t.Sited (t.stop id + forestSize earlier) parent (before ++ part :: earlier) sibling later := by
  have hStop := h.stop_eq
  obtain ⟨hSpans, hPlace⟩ := h
  rw [← List.cons_append, ← List.append_assoc] at hSpans
  refine ⟨hSpans, ?_⟩
  rw [hStop, hPlace, forestSize_append, forestSize]
  omega

/-- The part of a forest that reaches over a place. -/
theorem exists_part_of_lt_forestSize {offset : Nat} (h : offset < forestSize forest) :
    ∃ before part after, forest = before ++ part :: after ∧ forestSize before ≤ offset ∧
      offset < forestSize before + part.size := by
  induction forest generalizing offset with
  | nil =>
      rw [forestSize_nil] at h
      omega
  | cons first rest ih =>
      by_cases hFirst : offset < first.size
      · exact ⟨[], first, rest, rfl, by simp, by simpa using hFirst⟩
      · rw [forestSize] at h
        have hRest : offset - first.size < forestSize rest := by omega
        obtain ⟨before, part, after, rfl, hLow, hHigh⟩ := ih hRest
        refine ⟨first :: before, part, after, rfl, ?_, ?_⟩
        · rw [forestSize]
          omega
        · rw [forestSize]
          omega

/-- Every node within a run is a part of what a node of the run holds.  What holds of a forest and
passes on to what its parts hold then holds there. -/
theorem Spans.exists_sited {id inner : Nat} {forest : List Outline} (h : t.Spans id forest)
    (p : List Outline → Prop)
    (hPass : ∀ before part after, p (before ++ part :: after) → p part.parts) (hForest : p forest)
    (hLow : id < inner) (hHigh : inner < t.stop id) :
    ∃ parent before part after, t.Sited inner parent before part after ∧
      p (before ++ part :: after) := by
  rw [h.stop_eq] at hHigh
  have hOffset : inner - (id + 1) < forestSize forest := by omega
  obtain ⟨before, part, after, hEq, hBefore, hWithin⟩ := exists_part_of_lt_forestSize hOffset
  rw [hEq] at h hForest
  have hSited : t.Sited (id + 1 + forestSize before) id before part after := ⟨h, rfl⟩
  by_cases hOwn : inner = id + 1 + forestSize before
  · exact ⟨id, before, part, after, ⟨h, hOwn⟩, hForest⟩
  · have hParts := hSited.spans_parts
    have hStop := hSited.stop_eq
    exact Spans.exists_sited hParts p hPass (hPass _ _ _ hForest) (by omega) (by omega)
termination_by forestSize forest
decreasing_by
  rw [hEq, forestSize_append, forestSize_cons]
  omega

end Spans

end Tree

end CborPath
