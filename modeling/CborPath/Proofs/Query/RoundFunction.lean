import CborPath.Proofs.Number.RoundedValue
import CborPath.Proofs.Tree.Construction
import CborPath.Query.Eval
import Mathlib.Tactic.NormNum

/-!
# Rounding in queries

The function `round`, and `substring` for its bounds, take the nearest integer, halves going up, but for
the numbers whose sum with one half overshoots: these are rounded to the integer after it.
-/

namespace CborPath

open Binary64 (Overshoots)

section Bounds

variable {q : ℚ} {k : Int}

/-- The integer that the floor of the sum with one half gives is the nearest one. -/
theorem nearest_of_eq_floor (h : k = ⌊q + 1 / 2⌋) :
    k - 1 / 2 ≤ q ∧ q < k + 1 / 2 := by
  have hLow := Int.floor_le (q + 1 / 2)
  have hHigh := Int.lt_floor_add_one (q + 1 / 2)
  rw [← h] at hLow hHigh
  exact ⟨by linarith, by linarith⟩

/-- There is one nearest integer. -/
theorem nearest_unique {m : Int} (h : k - 1 / 2 ≤ q ∧ q < k + 1 / 2) (h' : m - 1 / 2 ≤ q ∧ q < m + 1 / 2) :
    k = m := by
  have hLow : (k : ℚ) < (m + 1 : Int) := by
    push_cast
    linarith
  have hHigh : (m : ℚ) < (k + 1 : Int) := by
    push_cast
    linarith
  rw [Int.cast_lt] at hLow hHigh
  omega

end Bounds

/-- Rounding to integers.  A finite number is rounded to the nearest integer, halves going up, so that an
integer is not changed and the result is at most one half away.  The exceptions are the greatest number
below one half and the odd integers between `2 ^ 52` and `2 ^ 53`, with either sign: the result is then the
next integer.  This rounding is what the function `round` does, and what `substring` does to its bounds. -/
theorem round_of_finite {x : Binary64} {q : ℚ} (hValue : x.value? = some q) :
    (∃ k : Int, x.round.value? = some (k : ℚ) ∧
      (¬Overshoots q → (k - 1 / 2 ≤ q ∧ q < k + 1 / 2) ∧ |(k : ℚ) - q| ≤ 1 / 2 ∧
        ∀ m : Int, q = m → k = m) ∧
      (Overshoots q → ((k - 1 : Int) - 1 / 2 ≤ q ∧ q < (k - 1 : Int) + 1 / 2) ∧
        1 / 2 < |(k : ℚ) - q|)) ∧
    ∀ {P : Type} (nav : Navigator P) (context : Context P) (e : Expr),
      e.eval nav context = .ok (.number x) →
        (Expr.unary .round e).eval nav context = .ok (.number x.round) ∧
        ∀ (text : Expr) (s : String), text.eval nav context = .ok (.text s) →
          (Expr.substringFrom text e).eval nav context =
            .ok (.text (substringBetween s x.round (.infinite false))) ∧
          ∀ (length : Expr) (y : Binary64), length.eval nav context = .ok (.number y) →
            (Expr.substring text e length).eval nav context =
              .ok (.text (substringBetween s x.round (x.round.add y.round))) := by
  refine ⟨?_, fun nav context e hNumber => ⟨?_, fun text s hText => ⟨?_, fun length y hLength => ?_⟩⟩⟩
  · obtain ⟨k, hRound, hDown, hUp⟩ := Binary64.exists_value?_round hValue
    refine ⟨k, hRound, fun hNot => ?_, fun hOver => ?_⟩
    · have hNearest := nearest_of_eq_floor (hDown hNot)
      refine ⟨hNearest, abs_le.2 ⟨by linarith, by linarith⟩, fun m hWhole => ?_⟩
      exact nearest_unique hNearest ⟨by linarith, by linarith⟩
    · have hNearest := nearest_of_eq_floor (show k - 1 = ⌊q + 1 / 2⌋ by rw [hUp hOver]; omega)
      refine ⟨hNearest, lt_of_lt_of_le ?_ (le_abs_self _)⟩
      push_cast at hNearest
      linarith
  · rw [Expr.eval, hNumber]
    rfl
  · rw [Expr.eval, hText, hNumber]
    rfl
  · rw [Expr.eval, hText, hNumber, hLength]
    rfl

/-- The greatest number below one half. -/
def belowHalf : Binary64 := Binary64.ofText "0.49999999999999994"

theorem value?_belowHalf :
    belowHalf.value? = some (1 / 2 - 1 / 2 ^ 54) := by
  decide +kernel

theorem round_of_finite_belowHalf :
    belowHalf.value? = some (1 / 2 - 1 / 2 ^ 54) ∧ belowHalf.round.value? = some 1 ∧
      (Binary64.ofText "-2.5").value? = some (-5 / 2) ∧ (Binary64.ofText "-2.5").round.value? = some (-2) ∧
      (Expr.unary .round (.number belowHalf)).eval Tree.pair.navigator ⟨0, 1, 1⟩ =
        .ok (.number belowHalf.round) := by
  have hMiddle : (Binary64.ofText "-2.5").value? = some (-5 / 2) := by decide +kernel
  have hOver : Overshoots (1 / 2 - 1 / 2 ^ 54) := .inl rfl
  have hNot : ¬Overshoots (-5 / 2) := by
    rintro (hBelow | ⟨m, hWhole, -⟩)
    · norm_num at hBelow
    · have hDouble : -5 = 2 * m := by
        have hCast : (-5 : ℚ) = 2 * m := by linarith
        exact_mod_cast hCast
      omega
  obtain ⟨⟨k, hRound, -, hNext⟩, hEval⟩ := round_of_finite value?_belowHalf
  obtain ⟨⟨n, hRoundMiddle, hNearest, -⟩, -⟩ := round_of_finite hMiddle
  have hOne : k = 0 + 1 :=
    sub_eq_iff_eq_add.1 (nearest_unique (hNext hOver).1 (by norm_num) : k - 1 = 0)
  have hMinusTwo : n = -2 := nearest_unique (hNearest hNot).1 (by norm_num)
  subst hOne hMinusTwo
  exact ⟨value?_belowHalf, hRound, hMiddle, hRoundMiddle,
    (hEval Tree.pair.navigator ⟨0, 1, 1⟩ (.number belowHalf) rfl).1⟩

/-- The nearest integer is not found for all finite numbers. -/
theorem not_round_nearest :
    ¬∀ (x : Binary64) (q : ℚ), x.value? = some q →
      ∃ k : Int, x.round.value? = some (k : ℚ) ∧ k - 1 / 2 ≤ q ∧ q < k + 1 / 2 := by
  intro hNearest
  obtain ⟨k, hRound, hLow, -⟩ := hNearest _ _ value?_belowHalf
  have hOne : belowHalf.round.value? = some 1 := by decide +kernel
  rw [hOne] at hRound
  rw [← Option.some.inj hRound] at hLow
  norm_num at hLow

end CborPath
