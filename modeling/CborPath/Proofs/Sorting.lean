import Mathlib.Data.List.Forall2

/-!
# Sorting

What sorting makes of related lists, and what tells a sorted list from others: the elements of each
key, in their order.
-/

namespace CborPath

section Related

variable {α β : Type} {R : α → β → Prop} {xs : List α} {ys : List β}

/-- Sorting by orders that agree on related elements keeps lists related. -/
theorem forall₂_mergeSort {le : α → α → Bool} {le' : β → β → Bool} (h : List.Forall₂ R xs ys)
    (hSame : ∀ x y x' y', R x y → R x' y' → le x x' = le' y y') :
    List.Forall₂ R (xs.mergeSort le) (ys.mergeSort le') := by
  obtain ⟨hLength, hPairs⟩ := List.forall₂_iff_zip.1 h
  have hFirst : (xs.zip ys).map Prod.fst = xs := List.map_fst_zip (Nat.le_of_eq hLength)
  have hSecond : (xs.zip ys).map Prod.snd = ys := List.map_snd_zip (Nat.le_of_eq hLength.symm)
  have hLeft := List.map_mergeSort (f := Prod.fst) (l := xs.zip ys) (r := fun a b => le a.1 b.1)
    (s := le) fun _ _ _ _ => rfl
  have hRight := List.map_mergeSort (f := Prod.snd) (l := xs.zip ys) (r := fun a b => le a.1 b.1)
    (s := le') fun a hA b hB => hSame _ _ _ _ (hPairs hA) (hPairs hB)
  rw [hFirst] at hLeft
  rw [hSecond] at hRight
  rw [← hLeft, ← hRight, List.forall₂_map_left_iff, List.forall₂_map_right_iff, List.forall₂_same]
  intro a hMem
  exact hPairs (List.mem_mergeSort.1 hMem)

end Related

section Keyed

variable {α κ : Type} {key : α → κ} {le : κ → κ → Prop} (hRefl : ∀ k, le k k) {xs ys : List α}
include hRefl

/-- The key of the first element of a list in the order of keys is not after that of any other. -/
theorem key_le_of_mem {x y : α} (hYs : (y :: ys).Pairwise fun a b => le (key a) (key b))
    (hMem : x ∈ y :: ys) :
    le (key y) (key x) := by
  rcases List.mem_cons.1 hMem with rfl | hLater
  · exact hRefl _
  · exact List.rel_of_pairwise_cons hYs hLater

/-- Lists in the order of keys are the same if they have the same elements of each key, in the same
order. -/
theorem eq_of_pairwise_of_filter_eq [DecidableEq κ] (hAntisymm : ∀ k k', le k k' → le k' k → k = k')
    (hXs : xs.Pairwise fun a b => le (key a) (key b))
    (hYs : ys.Pairwise fun a b => le (key a) (key b))
    (h : ∀ k, (xs.filter fun x => key x = k) = ys.filter fun y => key y = k) :
    xs = ys := by
  have hMem : ∀ x, x ∈ xs ↔ x ∈ ys := by
    intro x
    have hKey : x ∈ (xs.filter fun a => key a = key x) ↔ x ∈ ys.filter fun a => key a = key x := by
      rw [h]
    simpa using hKey
  induction xs generalizing ys with
  | nil => exact (List.eq_nil_iff_forall_not_mem.2 fun y hY => by simpa using (hMem y).2 hY).symm
  | cons x xs ih =>
      cases ys with
      | nil => simpa using (hMem x).1 List.mem_cons_self
      | cons y ys =>
          have hKeys : key x = key y :=
            hAntisymm _ _ (key_le_of_mem hRefl hXs ((hMem y).2 List.mem_cons_self))
              (key_le_of_mem hRefl hYs ((hMem x).1 List.mem_cons_self))
          have hFirst := h (key x)
          rw [List.filter_cons_of_pos (by simp), List.filter_cons_of_pos (by simp [hKeys])]
            at hFirst
          obtain ⟨rfl, -⟩ := List.cons.inj hFirst
          have hRest : ∀ k, (xs.filter fun a => key a = k) = ys.filter fun a => key a = k := by
            intro k
            have hBoth := h k
            rw [List.filter_cons, List.filter_cons] at hBoth
            split at hBoth
            · exact (List.cons.inj hBoth).2
            · exact hBoth
          refine congrArg _ (ih hXs.of_cons hYs.of_cons hRest fun z => ?_)
          have hKey : z ∈ (xs.filter fun a => key a = key z) ↔
              z ∈ ys.filter fun a => key a = key z := by
            rw [hRest]
          simpa using hKey

end Keyed

end CborPath
