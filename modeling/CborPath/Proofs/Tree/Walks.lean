import CborPath.Proofs.Tree.Ancestry
import Mathlib.Data.List.Sort

/-!
# Walks

Where the walks of a navigator lead in a tree that has been built.  Each of them ends by itself, so
that any bound of at least the number of nodes gives the same places; and each meets exactly the
places that runs and parents tell, in rising order when it leads on and in falling order when it leads
back.
-/

namespace CborPath

/-- The places before a given one that pass a test, nearest first. -/
def placesBefore (n : Nat) (test : Nat → Bool) : List Nat :=
  ((List.range n).filter test).reverse

section PlacesBefore

variable {n m : Nat} {test : Nat → Bool}

@[simp] theorem mem_placesBefore_iff :
    m ∈ placesBefore n test ↔ m < n ∧ test m = true := by
  simp [placesBefore]

theorem pairwise_placesBefore (n : Nat) (test : Nat → Bool) :
    (placesBefore n test).Pairwise (· > ·) := by
  rw [placesBefore, List.pairwise_reverse]
  exact List.pairwise_lt_range.filter test

theorem length_placesBefore_le (n : Nat) (test : Nat → Bool) :
    (placesBefore n test).length ≤ n := by
  rw [placesBefore, List.length_reverse]
  exact Nat.le_trans (List.length_filter_le _ _) (Nat.le_of_eq List.length_range)

/-- Falling places are told by their members. -/
theorem eq_placesBefore {places : List Nat} (hFalling : places.Pairwise (· > ·))
    (hMem : ∀ m, m ∈ places ↔ m < n ∧ test m = true) :
    places = placesBefore n test :=
  hFalling.eq_of_mem_iff (pairwise_placesBefore n test) fun m => by
    rw [hMem, mem_placesBefore_iff]

end PlacesBefore

/-- Where each part gives its own run, a forest gives the runs of all its parts. -/
theorem flatMap_partPlaces {f : Nat → List Nat} {start : Nat} {forest : List Outline}
    (h : ∀ before part after, forest = before ++ part :: after →
      f (start + forestSize before) = List.range' (start + forestSize before) part.size) :
    (partPlaces start forest).flatMap f = List.range' start (forestSize forest) := by
  induction forest generalizing start with
  | nil => rfl
  | cons part rest ih =>
      have hPart : f start = List.range' start part.size := by
        simpa using h [] part rest rfl
      have hRest : (partPlaces (start + part.size) rest).flatMap f =
          List.range' (start + part.size) (forestSize rest) := by
        refine ih fun before later after hEq => ?_
        have := h (part :: before) later after (by rw [hEq, List.cons_append])
        rwa [forestSize, ← Nat.add_assoc] at this
      rw [partPlaces, List.flatMap_cons, hPart, hRest, forestSize, List.range'_append_1]

namespace Tree

variable {t : Tree} {all forest before after : List Outline} {part : Outline}
  {id parent bound : Nat}

theorem Spans.descend_eq (h : t.Spans id forest) (hBound : t.size ≤ bound) {depth : Nat}
    (hDepth : forestSize forest ≤ depth) :
    descend (t.navigator.within bound).children depth id =
      List.range' (id + 1) (forestSize forest) := by
  induction depth generalizing id forest with
  | zero =>
      rw [Nat.le_zero.1 hDepth]
      rfl
  | succ depth ih =>
      rw [descend, h.children_within hBound]
      refine flatMap_partPlaces fun before part after hForest => ?_
      subst hForest
      have hSited : t.Sited (id + 1 + forestSize before) id before part after := ⟨h, rfl⟩
      rw [forestSize_append, forestSize_cons] at hDepth
      rw [ih hSited.spans_parts (by omega), Outline.size_eq, List.range'_succ]

/-- Below a node are the other places of its run. -/
theorem Spans.descendants_within (h : t.Spans id forest) (hBound : t.size ≤ bound) :
    (t.navigator.within bound).descendants id = List.range' (id + 1) (forestSize forest) := by
  have hSize := h.forestSize_le
  exact h.descend_eq hBound (show _ ≤ bound by omega)

theorem Spans.subtree_within (h : t.Spans id forest) (hBound : t.size ≤ bound) :
    (t.navigator.within bound).subtree id = List.range' id (forestSize forest + 1) := by
  rw [Navigator.subtree, h.descendants_within hBound, List.range'_succ]

theorem Sited.flatMap_subtree_after (h : t.Sited id parent before part after)
    (hBound : t.size ≤ bound) :
    (partPlaces (t.stop id) after).flatMap (t.navigator.within bound).subtree =
      List.range' (t.stop id) (forestSize after) := by
  refine flatMap_partPlaces fun earlier sibling later hAfter => ?_
  subst hAfter
  rw [h.sibling_after.spans_parts.subtree_within hBound, Outline.size_eq]

theorem Sited.flatMap_subtree_before (h : t.Sited id parent before part after)
    (hBound : t.size ≤ bound) :
    (partPlaces (parent + 1) before).flatMap (t.navigator.within bound).subtree =
      List.range' (parent + 1) (forestSize before) := by
  refine flatMap_partPlaces fun earlier sibling later hBefore => ?_
  subst hBefore
  rw [h.sibling_before.spans_parts.subtree_within hBound, Outline.size_eq]

section Siblings

variable (h : t.Sited id parent before part after) (hBound : t.size ≤ bound)
include h hBound

theorem Sited.followingSiblings_within :
    (t.navigator.within bound).followingSiblings id = partPlaces (t.stop id) after := by
  have hChain := h.spans.chain_children
  rw [partPlaces_append, partPlaces, ← h.place_eq, ← h.stop_eq] at hChain
  have hLength := length_partPlaces_le (t.stop id) after
  have hStop := h.stop_parent
  have hSize := stop_le_size h.parent_lt_size
  exact hChain.of_append_cons.repeatMove_eq (show _ ≤ bound by omega)

theorem Sited.precedingSiblings_within :
    (t.navigator.within bound).precedingSiblings id = (partPlaces (parent + 1) before).reverse := by
  have hChain := h.spans.chain_children_reverse
  rw [partPlaces_append, partPlaces, ← h.place_eq, List.reverse_append, List.reverse_cons,
    List.append_assoc, List.singleton_append] at hChain
  have hLength := length_partPlaces_le (parent + 1) before
  have hPlace := h.place_eq
  have hSize := h.lt_size
  refine hChain.of_append_cons.repeatMove_eq (show _ ≤ bound from ?_)
  rw [List.length_reverse]
  omega

end Siblings

section Depicts

variable (h : t.Depicts all)
include h

theorem Depicts.followingSiblings_root :
    (t.navigator.within bound).followingSiblings 0 = [] := by
  refine repeatMove_eq_nil (show (t.node 0).nextSibling = none from ?_) bound
  rw [h.node_root]
  rfl

theorem Depicts.precedingSiblings_root :
    (t.navigator.within bound).precedingSiblings 0 = [] := by
  refine repeatMove_eq_nil (show (t.node 0).previousSibling = none from ?_) bound
  rw [h.node_root]
  rfl

end Depicts

/-- Above a node are its parent and what is above that: the places whose runs reach over it. -/
theorem Sited.placesBefore_above (h : t.Sited id parent before part after) :
    placesBefore id (fun m => id < t.stop m) =
      parent :: placesBefore parent fun m => parent < t.stop m := by
  have hParent := h.parent_lt
  have hStop := h.stop_le_stop_parent
  have hOwn := lt_stop h.lt_size
  refine (eq_placesBefore (.cons (fun m hMem => ?_) (pairwise_placesBefore _ _)) fun m => ?_).symm
  · exact (mem_placesBefore_iff.1 hMem).1
  · rw [List.mem_cons, mem_placesBefore_iff, decide_eq_true_eq, decide_eq_true_eq]
    constructor
    · rintro (rfl | ⟨hLt, hReach⟩)
      · omega
      · have := stop_le_stop (Nat.lt_trans hLt h.parent_lt_size) hLt hReach
        omega
    · rintro ⟨hLt, hReach⟩
      rcases Nat.lt_trichotomy m parent with hBefore | hSame | hBetween
      · omega
      · exact .inl hSame
      · have := h.stop_le_of_lt hBetween hLt
        omega

/-- Before a node, and not above it, are the runs of the siblings before it, and what is so before its
parent. -/
theorem Sited.placesBefore_before (h : t.Sited id parent before part after) :
    placesBefore id (fun m => t.stop m ≤ id) =
      (List.range' (parent + 1) (forestSize before)).reverse ++
        placesBefore parent fun m => t.stop m ≤ parent := by
  have hPlace := h.place_eq
  have hStop := h.stop_le_stop_parent
  have hOwn := lt_stop h.lt_size
  refine (eq_placesBefore ?_ fun m => ?_).symm
  · rw [List.pairwise_append, List.pairwise_reverse]
    refine ⟨List.pairwise_lt_range', pairwise_placesBefore _ _, fun m hMem other hOther => ?_⟩
    rw [List.mem_reverse, List.mem_range'_1] at hMem
    rw [mem_placesBefore_iff] at hOther
    omega
  · rw [List.mem_append, List.mem_reverse, List.mem_range'_1, mem_placesBefore_iff,
      decide_eq_true_eq, decide_eq_true_eq]
    constructor
    · rintro (hBetween | hEarlier)
      · have := h.stop_le_of_lt (show parent < m by omega) (by omega)
        omega
      · omega
    · rintro ⟨hLt, hEnd⟩
      rcases Nat.lt_trichotomy m parent with hBefore | rfl | hBetween
      · rcases Nat.lt_or_ge parent (t.stop m) with hReach | hGe
        · have := stop_le_stop (Nat.lt_trans hBefore h.parent_lt_size) hBefore hReach
          omega
        · exact .inr ⟨hBefore, hGe⟩
      · omega
      · exact .inl (by omega)

section Within

variable (h : t.Depicts all) (hId : id < t.size) (hBound : t.size ≤ bound)
include h hId

/-- The links to parents run through the places whose runs reach over the node. -/
theorem Depicts.chain_above :
    Chain (fun i => (t.node i).parent) (t.node id).parent
      (placesBefore id fun m => id < t.stop m) := by
  induction id using Nat.strongRecOn with
  | ind id ih =>
      rcases Nat.eq_zero_or_pos id with rfl | hPos
      · rw [h.parent_root]
        exact .nil
      · obtain ⟨parent, before, part, after, hSited⟩ := h.exists_sited hPos hId
        rw [hSited.parent_eq, hSited.placesBefore_above]
        exact .cons (ih parent hSited.parent_lt hSited.parent_lt_size)

include hBound

theorem Depicts.ancestors_within :
    (t.navigator.within bound).ancestors id = placesBefore id fun m => id < t.stop m := by
  have hLength := length_placesBefore_le id fun m => id < t.stop m
  exact (h.chain_above hId).repeatMove_eq (show _ ≤ bound by omega)

/-- A walk that starts at a node and goes on from each node above it. -/
theorem Depicts.ancestors_cons_within (hSited : t.Sited id parent before part after) :
    (t.navigator.within bound).ancestors id =
      parent :: (t.navigator.within bound).ancestors parent := by
  rw [h.ancestors_within hId hBound, h.ancestors_within hSited.parent_lt_size hBound,
    hSited.placesBefore_above]

theorem Depicts.following_within :
    (t.navigator.within bound).following id =
      List.range' (t.stop id) (t.size - t.stop id) := by
  induction id using Nat.strongRecOn with
  | ind id ih =>
      rcases Nat.eq_zero_or_pos id with rfl | hPos
      · have hNone : (t.navigator.within bound).ancestors 0 = [] :=
          h.ancestors_within h.lt_size hBound
        rw [Navigator.following, hNone, List.flatMap_cons, h.followingSiblings_root, h.stop_root,
          Nat.sub_self]
        rfl
      · obtain ⟨parent, before, part, after, hSited⟩ := h.exists_sited hPos hId
        have hRest := ih parent hSited.parent_lt hSited.parent_lt_size
        have hSize := stop_le_size hSited.parent_lt_size
        have hStop := hSited.stop_parent
        rw [Navigator.following] at hRest
        rw [Navigator.following, h.ancestors_cons_within hId hBound hSited, List.flatMap_cons, hRest,
          hSited.followingSiblings_within hBound, hSited.flatMap_subtree_after hBound, hStop,
          List.range'_append_1]
        congr 1
        omega

theorem Depicts.preceding_within :
    (t.navigator.within bound).preceding id = placesBefore id fun m => t.stop m ≤ id := by
  induction id using Nat.strongRecOn with
  | ind id ih =>
      rcases Nat.eq_zero_or_pos id with rfl | hPos
      · have hNone : (t.navigator.within bound).ancestors 0 = [] :=
          h.ancestors_within h.lt_size hBound
        rw [Navigator.preceding, hNone, List.flatMap_cons, h.precedingSiblings_root]
        rfl
      · obtain ⟨parent, before, part, after, hSited⟩ := h.exists_sited hPos hId
        have hRest := ih parent hSited.parent_lt hSited.parent_lt_size
        rw [Navigator.preceding] at hRest
        have hBefore := congrArg List.reverse (hSited.flatMap_subtree_before hBound)
        rw [List.reverse_flatMap] at hBefore
        rw [Navigator.preceding, h.ancestors_cons_within hId hBound hSited, List.flatMap_cons, hRest,
          hSited.precedingSiblings_within hBound, hSited.placesBefore_before]
        exact congrArg (· ++ _) hBefore

end Within

end Tree

end CborPath
