import CborPath.Proofs.Query.Placement
import CborPath.Proofs.Tree.Construction
import CborPath.Proofs.Tree.Order

/-!
# Siblings

The children of a node are the places where the parts of what it holds begin.  They come in rising
order, the links from each to the next and to the one before run through all of them, and no other
node has the same parent.
-/

namespace CborPath

/-- Where the parts of a forest begin. -/
def partPlaces (start : Nat) : List Outline → List Nat
  | [] => []
  | part :: rest => start :: partPlaces (start + part.size) rest

section PartPlaces

variable {start place : Nat} {xs ys forest : List Outline}

theorem partPlaces_append :
    partPlaces start (xs ++ ys) = partPlaces start xs ++ partPlaces (start + forestSize xs) ys := by
  induction xs generalizing start with
  | nil => simp [partPlaces]
  | cons part rest ih =>
      rw [List.cons_append, partPlaces, ih, partPlaces, forestSize, List.cons_append, Nat.add_assoc]

theorem mem_partPlaces_iff :
    place ∈ partPlaces start forest ↔
      ∃ before part after, forest = before ++ part :: after ∧ place = start + forestSize before := by
  constructor
  · intro h
    induction forest generalizing start with
    | nil => cases h
    | cons part rest ih =>
        rw [partPlaces] at h
        rcases List.mem_cons.1 h with rfl | hLater
        · exact ⟨[], part, rest, rfl, by simp⟩
        · obtain ⟨before, later, after, rfl, rfl⟩ := ih hLater
          exact ⟨part :: before, later, after, rfl, by rw [forestSize, Nat.add_assoc]⟩
  · rintro ⟨before, part, after, rfl, rfl⟩
    rw [partPlaces_append, partPlaces]
    exact List.mem_append_right _ List.mem_cons_self

theorem bounds_of_mem_partPlaces (h : place ∈ partPlaces start forest) :
    start ≤ place ∧ place < start + forestSize forest := by
  obtain ⟨before, part, after, rfl, rfl⟩ := mem_partPlaces_iff.1 h
  rw [forestSize_append, forestSize_cons]
  omega

theorem pairwise_partPlaces (start : Nat) (forest : List Outline) :
    (partPlaces start forest).Pairwise (· < ·) := by
  induction forest generalizing start with
  | nil => exact .nil
  | cons part rest ih =>
      rw [partPlaces]
      refine .cons (fun place h => ?_) (ih _)
      have := (bounds_of_mem_partPlaces h).1
      rw [Outline.size_eq] at this
      omega

theorem length_partPlaces_le (start : Nat) (forest : List Outline) :
    (partPlaces start forest).length ≤ forestSize forest := by
  induction forest generalizing start with
  | nil => exact Nat.zero_le _
  | cons part rest ih =>
      have := ih (start + part.size)
      rw [partPlaces, List.length_cons, forestSize, Outline.size_eq] at *
      omega

end PartPlaces

namespace Tree

section Chains

variable {t : Tree} {parent : NodeId} {depth start : Nat} {previous next : Option NodeId}
  {forest : List Outline} {others : List NodeId}

/-- The links to next siblings run through a layout and on to what follows it. -/
theorem Lays.chain_next (h : t.Lays parent depth previous next start forest)
    (hNext : Chain (fun i => (t.node i).nextSibling) next others) :
    Chain (fun i => (t.node i).nextSibling) (firstPlace next start forest)
      (partPlaces start forest ++ others) := by
  induction h with
  | nil => exact hNext
  | cons hOwn _ _ _ ihRest =>
      refine .cons ?_
      rw [hOwn]
      exact ihRest hNext

/-- The links to previous siblings run through a layout and on to what precedes it. -/
theorem Lays.chain_previous (h : t.Lays parent depth previous next start forest)
    (hPrevious : Chain (fun i => (t.node i).previousSibling) previous others) :
    Chain (fun i => (t.node i).previousSibling) (lastPlace previous start forest)
      ((partPlaces start forest).reverse ++ others) := by
  induction h generalizing others with
  | nil => exact hPrevious
  | @cons parent depth previous next start part rest hOwn _ _ _ ihRest =>
      rw [partPlaces, List.reverse_cons, List.append_assoc, lastPlace]
      refine ihRest (.cons ?_)
      rw [hOwn]
      exact hPrevious

end Chains

section Spans

variable {t : Tree} {id : Nat} {forest before after : List Outline} {part : Outline}

theorem Spans.chain_children (h : t.Spans id forest) :
    Chain (fun i => (t.node i).nextSibling) (t.node id).firstChild (partPlaces (id + 1) forest) := by
  rw [h.firstChild]
  simpa using h.below.chain_next .nil

theorem Spans.chain_children_reverse (h : t.Spans id forest) :
    Chain (fun i => (t.node i).previousSibling) (t.node id).lastChild
      (partPlaces (id + 1) forest).reverse := by
  rw [h.lastChild]
  simpa using h.below.chain_previous .nil

/-- The places of parts depend on the tree alone. -/
theorem Spans.partPlaces_eq {others : List Outline} (h : t.Spans id forest)
    (h' : t.Spans id others) :
    partPlaces (id + 1) forest = partPlaces (id + 1) others :=
  h.chain_children.unique h'.chain_children

theorem Spans.forestSize_le (h : t.Spans id forest) :
    id + 1 + forestSize forest ≤ t.size := by
  rw [← h.stop_eq]
  exact stop_le_size h.lt_size

/-- The walk over the children of a node ends by itself within any bound that is not less than the
number of nodes. -/
theorem Spans.children_within (h : t.Spans id forest) {bound : Nat} (hBound : t.size ≤ bound) :
    (t.navigator.within bound).children id = partPlaces (id + 1) forest := by
  have hChain := h.chain_children
  have hLength := length_partPlaces_le (id + 1) forest
  have hSize := h.forestSize_le
  generalize partPlaces (id + 1) forest = places at hChain hLength
  have hFirst : (t.navigator.within bound).firstChild? id = (t.node id).firstChild := rfl
  rw [Navigator.children, hFirst]
  generalize (t.node id).firstChild = first at hChain
  cases hChain with
  | nil => rfl
  | cons hRest =>
      rw [List.length_cons] at hLength
      exact congrArg _ (hRest.repeatMove_eq (show _ ≤ bound by omega))

theorem Spans.children_eq (h : t.Spans id forest) :
    t.children id = partPlaces (id + 1) forest := by
  rw [← h.children_within (Nat.le_refl t.size), children, Navigator.children]
  have hFirst : (t.navigator.within t.size).firstChild? id = (t.node id).firstChild := rfl
  rw [hFirst]
  cases (t.node id).firstChild <;> rfl

end Spans

section Depicts

variable {t : Tree} {all forest : List Outline} {id place : Nat} (h : t.Depicts all)
include h

/-- The root is the document node, and has children at most. -/
theorem Depicts.node_root :
    t.node 0 =
      { NodeData.document with
        firstChild := (t.node 0).firstChild, lastChild := (t.node 0).lastChild } :=
  h.root_eq

theorem Depicts.depth_root :
    (t.node 0).depth = 0 := by
  rw [h.node_root]
  rfl

theorem Depicts.parent_root :
    (t.node 0).parent = none := by
  rw [h.node_root]
  rfl

theorem Depicts.lt_size :
    0 < t.size := by
  have hSize : t.size = 0 + 1 + forestSize all := h.size_eq
  omega

/-- The run of the root is the whole array. -/
theorem Depicts.stop_root :
    t.stop 0 = t.size := by
  refine stop_eq h.lt_size (Nat.le_refl _) (fun inner hLow hHigh => ?_) ?_
  · rw [h.size_eq] at hHigh
    exact h.below.depth_le hLow hHigh
  · rw [node_of_size_le (Nat.le_refl _)]
    exact Nat.zero_le _

theorem Depicts.spans :
    t.Spans 0 all :=
  ⟨h.toHolds, h.lt_size, h.stop_root.trans h.size_eq⟩

/-- Every node but the root is a part of what another holds. -/
theorem Depicts.exists_sited (hLow : 0 < id) (hHigh : id < t.size) :
    ∃ parent before part after, t.Sited id parent before part after := by
  obtain ⟨parent, before, part, after, hSited, -⟩ :=
    h.spans.exists_sited (fun _ => True) (fun _ _ _ _ => trivial) trivial hLow
      (by rwa [h.stop_root])
  exact ⟨parent, before, part, after, hSited⟩

theorem Depicts.exists_spans (hId : id < t.size) :
    ∃ forest, t.Spans id forest := by
  rcases Nat.eq_zero_or_pos id with rfl | hPos
  · exact ⟨all, h.spans⟩
  · obtain ⟨parent, before, part, after, hSited⟩ := h.exists_sited hPos hId
    exact ⟨part.parts, hSited.spans_parts⟩

theorem Depicts.exists_sited_of_parent_eq (hParent : (t.node place).parent = some id) :
    ∃ before part after, t.Sited place id before part after := by
  have hSize : place < t.size := by
    rcases Nat.lt_or_ge place t.size with hLt | hGe
    · exact hLt
    · rw [node_of_size_le hGe] at hParent
      cases hParent
  have hPos : 0 < place := by
    rcases Nat.eq_zero_or_pos place with rfl | hPos
    · rw [h.parent_root] at hParent
      cases hParent
    · exact hPos
  obtain ⟨parent, before, part, after, hSited⟩ := h.exists_sited hPos hSize
  rw [hSited.parent_eq] at hParent
  cases hParent
  exact ⟨before, part, after, hSited⟩

/-- The nodes of the parts are those that have the node as their parent. -/
theorem Depicts.mem_partPlaces_iff_parent_eq (hSpans : t.Spans id forest) :
    place ∈ partPlaces (id + 1) forest ↔ (t.node place).parent = some id := by
  constructor
  · intro hMem
    obtain ⟨before, part, after, rfl, rfl⟩ := mem_partPlaces_iff.1 hMem
    exact Sited.parent_eq ⟨hSpans, rfl⟩
  · intro hParent
    obtain ⟨before, part, after, hSited⟩ := h.exists_sited_of_parent_eq hParent
    rw [hSpans.partPlaces_eq hSited.spans]
    exact mem_partPlaces_iff.2 ⟨before, part, after, rfl, hSited.place_eq⟩

end Depicts

end Tree

end CborPath
