import CborPath.Query.Axis

/-!
# Sorting into document order

The places of a tree are sorted by number, and repeats stand side by side once they are sorted.  So
sorting into document order gives the same places, each once, in rising order; and what is in that
order already is left as it is.
-/

namespace CborPath

namespace Tree

variable {places : List Nat}

theorem isLE_order (t : Tree) (a b : Nat) :
    (t.navigator.order a b).isLE = decide (a ≤ b) := by
  show (compare a b).isLE = decide (a ≤ b)
  rw [Bool.eq_iff_iff, Nat.isLE_compare, decide_eq_true_eq]

theorem mem_dropRepeats_iff (t : Tree) (places : List Nat) (m : Nat) :
    m ∈ t.navigator.dropRepeats places ↔ m ∈ places := by
  induction places with
  | nil => rfl
  | cons p ps ih =>
      rw [Navigator.dropRepeats, List.mem_cons, ← ih]
      cases t.navigator.dropRepeats ps with
      | nil => simp
      | cons q qs =>
          by_cases hSame : p = q
          · subst hSame
            simp [navigator]
          · simp [navigator, hSame]

theorem pairwise_dropRepeats (t : Tree) (h : places.Pairwise (· ≤ ·)) :
    (t.navigator.dropRepeats places).Pairwise (· < ·) := by
  induction h with
  | nil => exact .nil
  | @cons p ps hLe _ ih =>
      rw [Navigator.dropRepeats]
      have hMem := mem_dropRepeats_iff t ps
      generalize t.navigator.dropRepeats ps = rest at ih hMem
      cases rest with
      | nil => exact List.pairwise_singleton _ p
      | cons q qs =>
          have hFirst : p ≤ q := hLe q ((hMem q).1 List.mem_cons_self)
          by_cases hSame : p = q
          · subst hSame
            simpa [navigator] using ih
          · have hLt : p < q := Nat.lt_of_le_of_ne hFirst hSame
            have hBefore : ∀ m ∈ q :: qs, p < m := by
              intro m hLater
              rcases List.mem_cons.1 hLater with rfl | hRest
              · exact hLt
              · exact Nat.lt_trans hLt ((List.pairwise_cons.1 ih).1 m hRest)
            simpa [navigator, hSame] using And.intro hBefore ih

theorem dropRepeats_of_pairwise (t : Tree) (h : places.Pairwise (· < ·)) :
    t.navigator.dropRepeats places = places := by
  induction h with
  | nil => rfl
  | @cons p ps hLt _ ih =>
      rw [Navigator.dropRepeats, ih]
      cases ps with
      | nil => rfl
      | cons q qs =>
          have hFirst : p ≠ q := Nat.ne_of_lt (hLt q List.mem_cons_self)
          simp [navigator, hFirst]

theorem mem_documentOrder_iff (t : Tree) (places : List Nat) (m : Nat) :
    m ∈ t.navigator.documentOrder places ↔ m ∈ places := by
  rw [Navigator.documentOrder, mem_dropRepeats_iff, List.mem_mergeSort]

theorem pairwise_documentOrder (t : Tree) (places : List Nat) :
    (t.navigator.documentOrder places).Pairwise (· < ·) := by
  refine pairwise_dropRepeats t ?_
  have hSorted : (places.mergeSort fun a b => (t.navigator.order a b).isLE).Pairwise
      fun a b => (t.navigator.order a b).isLE = true :=
    List.pairwise_mergeSort
      (fun a b c hab hbc => by
        rw [isLE_order, decide_eq_true_eq] at *
        exact Nat.le_trans hab hbc)
      (fun a b => by
        rw [isLE_order, isLE_order, Bool.or_eq_true, decide_eq_true_eq, decide_eq_true_eq]
        exact Nat.le_total a b)
      places
  refine hSorted.imp fun {a b} h => ?_
  rwa [isLE_order, decide_eq_true_eq] at h

theorem documentOrder_of_pairwise (t : Tree) (h : places.Pairwise (· < ·)) :
    t.navigator.documentOrder places = places := by
  have hSorted : places.Pairwise fun a b => (t.navigator.order a b).isLE = true := by
    refine h.imp fun {a b} hLt => ?_
    rw [isLE_order, decide_eq_true_eq]
    exact Nat.le_of_lt hLt
  rw [Navigator.documentOrder, List.mergeSort_of_pairwise hSorted, dropRepeats_of_pairwise t h]

end Tree

end CborPath
