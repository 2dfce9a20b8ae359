import CborPath.Proofs.Query.Axes

/-!
# Paths from the root

The order of two nodes that is found by walking: the paths that lead to them from the root are
compared, and where they part, the siblings.  Whatever lies below one of two siblings lies on the
same side of whatever lies below the other, so this order is that of places.
-/

namespace CborPath

namespace Tree

@[simp] theorem same_iff {t : Tree} {a b : Nat} :
    t.navigator.same a b = true ↔ a = b :=
  beq_iff_eq

/-- Whether places lead from a node down to another, each being a child of the one before. -/
inductive LeadsDown (t : Tree) : Nat → List Nat → Nat → Prop
  | here {top : Nat} :
      LeadsDown t top [] top
  | child {top place bottom : Nat} {path : List Nat} :
      (t.node place).parent = some top → LeadsDown t place path bottom →
        LeadsDown t top (place :: path) bottom

section LeadsDown

variable {t : Tree} {all : List Outline} {top bottom other : Nat} {path others : List Nat}

/-- A path goes on to a child of where it leads. -/
theorem LeadsDown.snoc (h : t.LeadsDown top path bottom)
    (hParent : (t.node other).parent = some bottom) :
    t.LeadsDown top (path ++ [other]) other := by
  induction h with
  | here => exact .child hParent .here
  | child hPlace _ ih => exact .child hPlace (ih hParent)

/-- A path leads to what is at or below where it starts. -/
theorem LeadsDown.under (h : t.LeadsDown top path bottom) :
    t.Under bottom top := by
  induction h with
  | here => exact .refl
  | child hParent _ ih => exact ih.tail hParent

variable (h : t.Depicts all)
include h

theorem Depicts.lt_stop_of_leadsDown (hSize : top < t.size) (hPath : t.LeadsDown top path bottom) :
    top ≤ bottom ∧ bottom < t.stop top :=
  (h.under_iff hSize).1 hPath.under

/-- The path that is found by moves from the root leads down to the node. -/
theorem Depicts.exists_pathFromRoot (hId : bottom < t.size) :
    ∃ path, t.navigator.pathFromRoot bottom = 0 :: path ∧ t.LeadsDown 0 path bottom := by
  induction bottom using Nat.strongRecOn with
  | ind bottom ih =>
      rcases Nat.eq_zero_or_pos bottom with rfl | hPos
      · refine ⟨[], ?_, .here⟩
        have hNone : t.navigator.ancestors 0 = [] := h.ancestors_within hId (Nat.le_refl t.size)
        rw [Navigator.pathFromRoot, hNone]
        rfl
      · obtain ⟨parent, before, part, after, hSited⟩ := h.exists_sited hPos hId
        obtain ⟨path, hEq, hPath⟩ := ih parent hSited.parent_lt hSited.parent_lt_size
        refine ⟨path ++ [bottom], ?_, hPath.snoc hSited.parent_eq⟩
        have hAbove : t.navigator.ancestors bottom = parent :: t.navigator.ancestors parent :=
          h.ancestors_cons_within hId (Nat.le_refl t.size) hSited
        rw [Navigator.pathFromRoot, hAbove, List.reverse_cons, ← Navigator.pathFromRoot, hEq,
          List.cons_append]

/-- Among siblings, those that follow are those of greater places. -/
theorem Depicts.any_followingSiblings_same (hId : bottom < t.size) (hOther : other < t.size)
    (hParent : (t.node other).parent = (t.node bottom).parent) :
    ((t.navigator.followingSiblings bottom).any fun sibling => t.navigator.same sibling other) =
      decide (bottom < other) := by
  have hPlaces : t.navigator.followingSiblings bottom = t.axisPlaces bottom .followingSibling :=
    h.followingSiblings_places hId (Nat.le_refl t.size)
  rw [hPlaces, Bool.eq_iff_iff, List.any_eq_true]
  simp [axisPlaces, hOther, hParent]

/-- Below a common node, the order by paths is the order of places. -/
theorem Depicts.comparePaths_eq {a b : Nat} (hSize : top < t.size)
    (hPath : t.LeadsDown top path a) (hOthers : t.LeadsDown top others b) (hNe : a ≠ b) :
    t.navigator.comparePaths path others = compare a b := by
  induction hPath generalizing others with
  | here =>
      obtain ⟨hLe, -⟩ := h.lt_stop_of_leadsDown hSize hOthers
      rw [Navigator.comparePaths, eq_comm, Nat.compare_eq_lt]
      omega
  | @child top place a path hParent hPath ih =>
      have hPlace := h.lt_size_of_parent_eq hParent
      obtain ⟨hLow, hHigh⟩ := h.lt_stop_of_leadsDown hPlace hPath
      obtain ⟨_, _, _, hSited⟩ := h.exists_sited_of_parent_eq hParent
      have hTop := hSited.parent_lt
      cases hOthers with
      | here =>
          rw [Navigator.comparePaths, eq_comm, Nat.compare_eq_gt]
          omega
      | @child _ other _ others hOtherParent hOthers =>
          have hOther := h.lt_size_of_parent_eq hOtherParent
          rw [Navigator.comparePaths]
          by_cases hSame : place = other
          · subst hSame
            rw [if_pos (same_iff.2 rfl)]
            exact ih hPlace hOthers hNe
          · -- Two children of one node: the run of the first ends before the second begins.
            obtain ⟨hOtherLow, hOtherHigh⟩ := h.lt_stop_of_leadsDown hOther hOthers
            obtain ⟨_, _, _, hOtherSited⟩ := h.exists_sited_of_parent_eq hOtherParent
            have hOtherTop := hOtherSited.parent_lt
            rw [if_neg (mt same_iff.1 hSame),
              h.any_followingSiblings_same hPlace hOther (hOtherParent.trans hParent.symm)]
            rcases Nat.lt_or_gt_of_ne hSame with hBefore | hAfter
            · have hEnd := hOtherSited.stop_le_of_lt hTop hBefore
              rw [decide_eq_true hBefore, if_pos rfl, eq_comm, Nat.compare_eq_lt]
              omega
            · have hEnd := hSited.stop_le_of_lt hOtherTop hAfter
              rw [decide_eq_false (by omega), if_neg Bool.false_ne_true, eq_comm, Nat.compare_eq_gt]
              omega

/-- The order that is found by walking is the order of places. -/
theorem Depicts.walkOrder_eq {a b : Nat} (hA : a < t.size) (hB : b < t.size) :
    t.navigator.walkOrder a b = compare a b := by
  rw [Navigator.walkOrder]
  by_cases hSame : a = b
  · subst hSame
    rw [if_pos (same_iff.2 rfl), Nat.compare_eq_eq.2 rfl]
  · obtain ⟨path, hEq, hPath⟩ := h.exists_pathFromRoot hA
    obtain ⟨others, hEqOther, hOthers⟩ := h.exists_pathFromRoot hB
    rw [if_neg (mt same_iff.1 hSame), hEq, hEqOther, Navigator.comparePaths,
      if_pos (same_iff.2 rfl)]
    exact h.comparePaths_eq h.lt_size hPath hOthers hSame

end LeadsDown

end Tree

end CborPath
