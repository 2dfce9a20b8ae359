import CborPath.Proofs.Tree.Walks

/-!
# Axes

The places on each axis from a node of a tree that has been built, told by runs and parents alone.
Together with the node itself, what is above, below, before and after it is the whole document; and
what one axis leads to leads back by the opposite one.
-/

namespace CborPath

/-- The axis that leads back from what an axis leads to. -/
def Axis.opposite : Axis → Axis
  | .child => .parent
  | .descendant => .ancestor
  | .descendantOrSelf => .ancestorOrSelf
  | .parent => .child
  | .ancestor => .descendant
  | .ancestorOrSelf => .descendantOrSelf
  | .followingSibling => .precedingSibling
  | .precedingSibling => .followingSibling
  | .following => .preceding
  | .preceding => .following
  | .self => .self
  | .attributes => .attributes

namespace Tree

/-- The places on an axis from a node, in proximity order. -/
def axisPlaces (t : Tree) (n : Nat) : Axis → List Nat
  | .child => (List.range t.size).filter fun m => (t.node m).parent = some n
  | .descendant => List.range' (n + 1) (t.stop n - (n + 1))
  | .descendantOrSelf => List.range' n (t.stop n - n)
  | .parent => (t.node n).parent.toList
  | .ancestor => placesBefore n fun m => n < t.stop m
  | .ancestorOrSelf => n :: placesBefore n fun m => n < t.stop m
  | .followingSibling =>
      (List.range t.size).filter fun m => n < m && (t.node m).parent = (t.node n).parent
  | .precedingSibling => placesBefore n fun m => (t.node m).parent = (t.node n).parent
  | .following => List.range' (t.stop n) (t.size - t.stop n)
  | .preceding => placesBefore n fun m => t.stop m ≤ n
  | .self => [n]
  | .attributes => []

variable {t : Tree} {all forest before after : List Outline} {part : Outline}
  {id parent bound : Nat}

/-- Rising places are told by their members. -/
theorem eq_filter_range {places : List Nat} {test : Nat → Bool}
    (hRising : places.Pairwise (· < ·)) (hMem : ∀ m, m ∈ places ↔ m < t.size ∧ test m = true) :
    places = (List.range t.size).filter test :=
  hRising.eq_of_mem_iff (List.pairwise_lt_range.filter test) fun m => by
    rw [hMem, List.mem_filter, List.mem_range]

section Depicts

variable (h : t.Depicts all)
include h

theorem Depicts.lt_size_of_parent_eq {m : Nat} (hParent : (t.node m).parent = some id) :
    m < t.size := by
  obtain ⟨_, _, _, hSited⟩ := h.exists_sited_of_parent_eq hParent
  exact hSited.lt_size

/-- The nodes with the same parent stand before the node, at it, or after its run. -/
theorem Depicts.parent_eq_iff (hSited : t.Sited id parent before part after) (m : Nat) :
    (t.node m).parent = some parent ↔
      m ∈ partPlaces (parent + 1) before ∨ m = id ∨ m ∈ partPlaces (t.stop id) after := by
  rw [← h.mem_partPlaces_iff_parent_eq hSited.spans, partPlaces_append, partPlaces,
    ← hSited.place_eq, ← hSited.stop_eq, List.mem_append, List.mem_cons]

theorem Depicts.parent_ne_none {m : Nat} (hPos : 0 < m) (hSize : m < t.size) :
    (t.node m).parent ≠ none := by
  obtain ⟨parent, _, _, _, hSited⟩ := h.exists_sited hPos hSize
  rw [hSited.parent_eq]
  exact Option.some_ne_none parent

variable (hId : id < t.size)
include hId

theorem Depicts.children_places (hBound : t.size ≤ bound) :
    (t.navigator.within bound).children id = t.axisPlaces id .child := by
  obtain ⟨forest, hSpans⟩ := h.exists_spans hId
  rw [hSpans.children_within hBound]
  refine eq_filter_range (pairwise_partPlaces _ _) fun m => ?_
  rw [h.mem_partPlaces_iff_parent_eq hSpans, decide_eq_true_eq]
  exact ⟨fun hParent => ⟨h.lt_size_of_parent_eq hParent, hParent⟩, And.right⟩

theorem Depicts.followingSiblings_places (hBound : t.size ≤ bound) :
    (t.navigator.within bound).followingSiblings id = t.axisPlaces id .followingSibling := by
  rcases Nat.eq_zero_or_pos id with rfl | hPos
  · rw [h.followingSiblings_root]
    refine eq_filter_range .nil fun m => ?_
    simp only [List.not_mem_nil, false_iff, Bool.and_eq_true, decide_eq_true_eq, not_and]
    intro hSize hLt hParent
    rw [h.parent_root] at hParent
    exact h.parent_ne_none hLt hSize hParent
  · obtain ⟨parent, before, part, after, hSited⟩ := h.exists_sited hPos hId
    have hOwn := lt_stop hId
    have hPlace := hSited.place_eq
    rw [hSited.followingSiblings_within hBound]
    refine eq_filter_range (pairwise_partPlaces _ _) fun m => ?_
    simp only [Bool.and_eq_true, decide_eq_true_eq]
    rw [hSited.parent_eq, h.parent_eq_iff hSited]
    constructor
    · intro hMem
      have hBounds := bounds_of_mem_partPlaces hMem
      have hParent := (h.parent_eq_iff hSited m).2 (.inr (.inr hMem))
      exact ⟨h.lt_size_of_parent_eq hParent, by omega, .inr (.inr hMem)⟩
    · rintro ⟨-, hLt, hBefore | rfl | hAfter⟩
      · have := bounds_of_mem_partPlaces hBefore
        omega
      · omega
      · exact hAfter

theorem Depicts.precedingSiblings_places (hBound : t.size ≤ bound) :
    (t.navigator.within bound).precedingSiblings id = t.axisPlaces id .precedingSibling := by
  rcases Nat.eq_zero_or_pos id with rfl | hPos
  · exact h.precedingSiblings_root
  · obtain ⟨parent, before, part, after, hSited⟩ := h.exists_sited hPos hId
    have hOwn := lt_stop hId
    have hPlace := hSited.place_eq
    rw [hSited.precedingSiblings_within hBound]
    refine eq_placesBefore (List.pairwise_reverse.2 (pairwise_partPlaces _ _)) fun m => ?_
    rw [List.mem_reverse, decide_eq_true_eq, hSited.parent_eq, h.parent_eq_iff hSited]
    constructor
    · intro hMem
      have := bounds_of_mem_partPlaces hMem
      exact ⟨by omega, .inl hMem⟩
    · rintro ⟨hLt, hBefore | rfl | hAfter⟩
      · exact hBefore
      · omega
      · have := bounds_of_mem_partPlaces hAfter
        omega

/-- Every axis leads to the places that runs and parents tell. -/
theorem Depicts.axisNodes_within (hBound : t.size ≤ bound) (axis : Axis) :
    (t.navigator.within bound).axisNodes id axis = t.axisPlaces id axis := by
  obtain ⟨forest, hSpans⟩ := h.exists_spans hId
  have hStop := hSpans.stop_eq
  cases axis with
  | child => exact h.children_places hId hBound
  | descendant =>
      rw [Navigator.axisNodes, hSpans.descendants_within hBound, axisPlaces, hStop]
      congr 1
      omega
  | descendantOrSelf =>
      rw [Navigator.axisNodes, hSpans.subtree_within hBound, axisPlaces, hStop]
      congr 1
      omega
  | parent => rfl
  | ancestor => exact h.ancestors_within hId hBound
  | ancestorOrSelf => exact congrArg _ (h.ancestors_within hId hBound)
  | followingSibling => exact h.followingSiblings_places hId hBound
  | precedingSibling => exact h.precedingSiblings_places hId hBound
  | following => exact h.following_within hId hBound
  | preceding => exact h.preceding_within hId hBound
  | self => rfl
  | attributes => rfl

end Depicts

/-- The places on an axis rise, or fall if the axis leads back, and none is met twice. -/
theorem pairwise_axisPlaces (t : Tree) (n : Nat) (axis : Axis) :
    if axis.isReverse then (t.axisPlaces n axis).Pairwise (· > ·)
    else (t.axisPlaces n axis).Pairwise (· < ·) := by
  cases axis with
  | child => exact List.pairwise_lt_range.filter _
  | descendant => exact List.pairwise_lt_range'
  | descendantOrSelf => exact List.pairwise_lt_range'
  | parent =>
      show ((t.node n).parent.toList).Pairwise (· > ·)
      cases (t.node n).parent with
      | none => exact .nil
      | some parent => exact List.pairwise_singleton _ parent
  | ancestor => exact pairwise_placesBefore _ _
  | ancestorOrSelf =>
      refine .cons (fun m hMem => ?_) (pairwise_placesBefore _ _)
      exact (mem_placesBefore_iff.1 hMem).1
  | followingSibling => exact List.pairwise_lt_range.filter _
  | precedingSibling => exact pairwise_placesBefore _ _
  | following => exact List.pairwise_lt_range'
  | preceding => exact pairwise_placesBefore _ _
  | self => exact List.pairwise_singleton _ n
  | attributes => exact .nil

theorem range'_append_of_le {a b c : Nat} (hFirst : a ≤ b) (hLast : b ≤ c) :
    List.range' a (b - a) ++ List.range' b (c - b) = List.range' a (c - a) := by
  have hJoin := List.range'_append_1 (s := a) (m := b - a) (n := c - b)
  rwa [show a + (b - a) = b by omega, show b - a + (c - b) = c - a by omega] at hJoin

/-- What stands before a place is either above it or ends before it. -/
theorem perm_ancestor_preceding (t : Tree) (n : Nat) :
    (t.axisPlaces n .ancestor ++ t.axisPlaces n .preceding).Perm (List.range n) := by
  have hTest : ∀ m : Nat, decide (t.stop m ≤ n) = !decide (n < t.stop m) := by
    intro m
    rw [← decide_not, decide_eq_decide, Nat.not_lt]
  simp only [axisPlaces, placesBefore, hTest]
  exact ((List.reverse_perm _).append (List.reverse_perm _)).trans (List.filter_append_perm _ _)

/-- A node, what is above it, below it, before it and after it are together the whole document. -/
theorem perm_axisPlaces (hId : id < t.size) :
    (t.axisPlaces id .self ++ t.axisPlaces id .ancestor ++ t.axisPlaces id .descendant ++
      t.axisPlaces id .preceding ++ t.axisPlaces id .following).Perm (List.range t.size) := by
  have hLow := lt_stop hId
  have hHigh := stop_le_size hId
  have hRange : List.range t.size = List.range id ++ (t.axisPlaces id .self ++
      (t.axisPlaces id .descendant ++ t.axisPlaces id .following)) := by
    have hOwn : t.axisPlaces id .self = List.range' id (id + 1 - id) := by
      rw [Nat.add_sub_cancel_left]
      rfl
    rw [hOwn, axisPlaces, axisPlaces, range'_append_of_le hLow hHigh,
      range'_append_of_le (by omega) (by omega), List.range_eq_range', List.range_eq_range']
    exact (range'_append_of_le (Nat.zero_le id) (Nat.le_of_lt hId)).symm
  rw [hRange, List.perm_iff_count]
  intro m
  have hBefore := (perm_ancestor_preceding t id).count_eq m
  simp only [List.count_append] at hBefore ⊢
  omega

theorem Depicts.lt_size_of_mem_axisPlaces (h : t.Depicts all) (hId : id < t.size) {axis : Axis}
    {m : Nat} (hMem : m ∈ t.axisPlaces id axis) :
    m < t.size := by
  have hOwn := lt_stop hId
  have hStop := stop_le_size hId
  cases axis <;>
    simp only [axisPlaces, List.mem_filter, List.mem_range, List.mem_range'_1, List.mem_cons,
      mem_placesBefore_iff, List.not_mem_nil, or_false, Option.mem_toList] at hMem
  case parent =>
    obtain ⟨_, _, _, hSited⟩ := h.exists_sited_of_parent_eq hMem
    exact hSited.parent_lt_size
  all_goals omega

/-- What an axis leads to leads back by the opposite axis. -/
theorem mem_axisPlaces_opposite_iff {m : Nat} (hId : id < t.size) (hOther : m < t.size)
    (axis : Axis) :
    m ∈ t.axisPlaces id axis ↔ id ∈ t.axisPlaces m axis.opposite := by
  have hOwn := lt_stop hId
  have hOtherOwn := lt_stop hOther
  cases axis <;>
    simp only [Axis.opposite, axisPlaces, List.mem_filter, List.mem_range, List.mem_range'_1,
      List.mem_cons, mem_placesBefore_iff, List.not_mem_nil, or_false, Option.mem_toList,
      decide_eq_true_eq, Bool.and_eq_true, hId, hOther, true_and]
  case followingSibling => rw [eq_comm (a := (t.node m).parent)]
  case precedingSibling => rw [eq_comm (a := (t.node m).parent)]
  all_goals omega

/-- The axes of a tree that has been built.  Runs are what is at and below a node; every walk ends by
itself, for the tree's own navigator and for cursors, and gives the places that runs and parents tell,
in rising order or, if the axis leads back, in falling order.  What is above, below, before and after
a node shares out the document, and opposite axes lead back. -/
theorem axisNodes_of_build {value : Value} {t : Tree} (hBuild : build value = .ok t) {n : Nat}
    (hId : n < t.size) :
    (∀ m, t.Under m n ↔ n ≤ m ∧ m < t.stop n) ∧
    (∀ axis bound, t.size ≤ bound →
      (t.navigator.within bound).axisNodes n axis = t.axisPlaces n axis ∧
      ∀ document origin,
        (Cursor.navigator.within bound).axisNodes ⟨document, t, n, origin⟩ axis =
          (t.axisPlaces n axis).map fun m => ⟨document, t, m, origin⟩) ∧
    (∀ axis : Axis, if axis.isReverse then (t.navigator.axisNodes n axis).Pairwise (· > ·)
      else (t.navigator.axisNodes n axis).Pairwise (· < ·)) ∧
    (t.navigator.axisNodes n .self ++ t.navigator.axisNodes n .ancestor ++
      t.navigator.axisNodes n .descendant ++ t.navigator.axisNodes n .preceding ++
      t.navigator.axisNodes n .following).Perm (List.range t.size) ∧
    ∀ axis m, m < t.size →
      (m ∈ t.navigator.axisNodes n axis ↔ n ∈ t.navigator.axisNodes m axis.opposite) := by
  obtain ⟨all, -, h⟩ := exists_depicts_of_build_eq_ok hBuild
  have hPlaces : ∀ m, m < t.size → ∀ axis, t.navigator.axisNodes m axis = t.axisPlaces m axis :=
    fun m hOther axis => h.axisNodes_within hOther (Nat.le_refl t.size) axis
  refine ⟨fun m => h.under_iff hId, fun axis bound hBound => ⟨?_, fun document origin => ?_⟩,
    fun axis => ?_, ?_, fun axis m hOther => ?_⟩
  · exact h.axisNodes_within hId hBound axis
  · have hCursor := (Cursor.places_navigator document t origin).within bound
    rw [hCursor.axisNodes_eq n axis, h.axisNodes_within hId hBound axis]
  · rw [hPlaces n hId]
    exact pairwise_axisPlaces t n axis
  · simp only [hPlaces n hId]
    exact perm_axisPlaces hId
  · rw [hPlaces n hId, hPlaces m hOther]
    exact mem_axisPlaces_opposite_iff hId hOther axis

theorem axisNodes_of_build_pair :
    build (.sequence [.scalar .null, .scalar (.boolean true)]) = .ok pair ∧ 3 < pair.size ∧
      pair.navigator.axisNodes 3 .preceding = [2, 1] ∧
      (pair.navigator.axisNodes 3 .self ++ pair.navigator.axisNodes 3 .ancestor ++
        pair.navigator.axisNodes 3 .descendant ++ pair.navigator.axisNodes 3 .preceding ++
        pair.navigator.axisNodes 3 .following).Perm (List.range pair.size) :=
  ⟨build_pair, by decide, by decide, (axisNodes_of_build build_pair (by decide)).2.2.2.1⟩

end Tree

end CborPath
