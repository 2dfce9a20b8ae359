import CborPath.Proofs.Tree.Siblings
import Mathlib.Logic.Relation

/-!
# Ancestry

Below a node, by way of parents, are exactly the nodes of its run.  Siblings before a node end where
it begins or earlier, so that a node is told from its neighbours by where their runs end.
-/

namespace CborPath

namespace Tree

/-- Whether a node is at or below another, by way of parents. -/
def Under (t : Tree) (inner outer : Nat) : Prop :=
  Relation.ReflTransGen (fun place above => (t.node place).parent = some above) inner outer

section Sited

variable {t : Tree} {id parent other : Nat} {before after : List Outline} {part : Outline}
  (h : t.Sited id parent before part after)
include h

theorem Sited.parent_lt :
    parent < id := by
  rw [h.place_eq]
  omega

theorem Sited.parent_lt_size :
    parent < t.size :=
  h.spans.lt_size

theorem Sited.lt_size :
    id < t.size :=
  h.spans_parts.lt_size

theorem Sited.stop_le_stop_parent :
    t.stop id ≤ t.stop parent := by
  rw [h.stop_parent]
  omega

/-- Whatever stands between a node and its parent has its run between them. -/
theorem Sited.stop_le_of_lt (hLow : parent < other) (hHigh : other < id) :
    t.stop other ≤ id := by
  have hPlace := h.place_eq
  have hOffset : other - (parent + 1) < forestSize before := by omega
  obtain ⟨earlier, sibling, later, rfl, hFirst, hLast⟩ := exists_part_of_lt_forestSize hOffset
  have hSibling := h.sibling_before
  have hStop := hSibling.stop_eq
  rw [forestSize_append, forestSize] at hPlace
  rcases Nat.eq_or_lt_of_le (show parent + 1 + forestSize earlier ≤ other by omega) with rfl | hLt
  · omega
  · have := stop_le_stop hSibling.lt_size hLt (by omega)
    omega

end Sited

section Depicts

variable {t : Tree} {all : List Outline} {id outer : Nat} (h : t.Depicts all)
include h

/-- The nodes at and below a node are those of its run. -/
theorem Depicts.under_iff (hSize : outer < t.size) :
    t.Under id outer ↔ outer ≤ id ∧ id < t.stop outer := by
  constructor
  · intro hUnder
    induction hUnder with
    | refl => exact ⟨Nat.le_refl _, lt_stop hSize⟩
    | tail _ hParent ih =>
        obtain ⟨_, _, _, hSited⟩ := h.exists_sited_of_parent_eq hParent
        have := ih hSited.lt_size
        have := hSited.parent_lt
        have := hSited.stop_le_stop_parent
        omega
  · induction id using Nat.strongRecOn with
    | ind id ih =>
        rintro ⟨hLow, hHigh⟩
        rcases Nat.eq_or_lt_of_le hLow with rfl | hLt
        · exact .refl
        · have hPos : 0 < id := Nat.zero_lt_of_lt hLt
          have hWithin : id < t.size := Nat.lt_of_lt_of_le hHigh (stop_le_size hSize)
          obtain ⟨parent, _, _, _, hSited⟩ := h.exists_sited hPos hWithin
          have hParent := hSited.parent_lt
          -- Otherwise the outer node would stand between the node and its parent.
          have hOuter : outer ≤ parent := by
            rcases Nat.lt_or_ge parent outer with hBetween | hGe
            · have := hSited.stop_le_of_lt hBetween hLt
              omega
            · exact hGe
          have hAbove : t.Under parent outer := ih parent hParent ⟨hOuter, by omega⟩
          exact .head hSited.parent_eq hAbove

end Depicts

end Tree

end CborPath
