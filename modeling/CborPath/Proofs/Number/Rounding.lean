import CborPath.Proofs.Number.Binary64
import Mathlib.Tactic.ByContra
import Mathlib.Tactic.Ring

/-!
# Rounding to the nearest magnitude

A fraction of units rounds to a magnitude if it lies between the midpoints to the two neighbouring
magnitudes; a midpoint itself goes to the magnitude at the even position.  Every fraction rounds to
one magnitude and to no other, and that is the one which `nearest` finds.
-/

namespace CborPath

namespace Binary64

/-- A quotient is rounded by half the denominator at most, and by less if it becomes odd. -/
theorem roundedQuotient_bounds (numerator : Nat) {denominator : Nat} (h : 0 < denominator) :
    2 * (roundedQuotient numerator denominator * denominator) ≤ 2 * numerator + denominator ∧
    2 * numerator ≤ 2 * (roundedQuotient numerator denominator * denominator) + denominator ∧
    (roundedQuotient numerator denominator % 2 = 1 →
      2 * (roundedQuotient numerator denominator * denominator) < 2 * numerator + denominator ∧
      2 * numerator < 2 * (roundedQuotient numerator denominator * denominator) + denominator) := by
  have hDivision := Nat.div_add_mod' numerator denominator
  have hRemainder := Nat.mod_lt numerator h
  have hNext : (numerator / denominator + 1) * denominator =
      numerator / denominator * denominator + denominator := Nat.succ_mul _ _
  rw [roundedQuotient]
  split
  · omega
  · split
    · omega
    · rcases Nat.mod_two_eq_zero_or_one (numerator / denominator) with hEven | hOdd
      · rw [hEven, Nat.add_zero]
        omega
      · rw [hOdd]
        omega

/-- Rounding goes at least down to the quotient and at most up to the next number. -/
theorem le_roundedQuotient (numerator denominator : Nat) :
    numerator / denominator ≤ roundedQuotient numerator denominator ∧
      roundedQuotient numerator denominator ≤ numerator / denominator + 1 := by
  rw [roundedQuotient]
  split
  · omega
  · split <;> omega

/-- Every position has an exponent and a significand. -/
theorem exists_shift (position : Nat) :
    ∃ shift significand, position = shift * 2 ^ 52 + significand ∧
      (shift = 0 ∨ 2 ^ 52 ≤ significand) ∧ significand < 2 ^ 53 := by
  by_cases hSmall : position < 2 ^ 52
  · exact ⟨0, position, by omega, .inl rfl, by omega⟩
  · exact ⟨position / 2 ^ 52 - 1, 2 ^ 52 + position % 2 ^ 52, by omega, .inr (by omega), by omega⟩

section Shifted

variable {shift significand : Nat}

/-- Positions by their exponent and their significand, which may also be the one that belongs to the
next exponent. -/
theorem unitsAt_shifted (hLow : shift = 0 ∨ 2 ^ 52 ≤ significand) (hHigh : significand ≤ 2 ^ 53) :
    unitsAt (shift * 2 ^ 52 + significand) = significand * 2 ^ shift := by
  by_cases hSmall : significand < 2 ^ 52
  · have hShift : shift = 0 := by omega
    subst hShift
    rw [Nat.zero_mul, Nat.zero_add, unitsAt_of_lt (by omega), Nat.pow_zero, Nat.mul_one]
  · rw [unitsAt_of_le (by omega)]
    rcases Nat.lt_or_eq_of_le hHigh with hLess | rfl
    · have hExponent : (shift * 2 ^ 52 + significand) / 2 ^ 52 - 1 = shift := by omega
      have hRest : 2 ^ 52 + (shift * 2 ^ 52 + significand) % 2 ^ 52 = significand := by omega
      rw [hExponent, hRest]
    · have hExponent : (shift * 2 ^ 52 + 2 ^ 53) / 2 ^ 52 - 1 = shift + 1 := by omega
      have hRest : 2 ^ 52 + (shift * 2 ^ 52 + 2 ^ 53) % 2 ^ 52 = 2 ^ 52 := by omega
      rw [hExponent, hRest, Nat.pow_succ']
      ring

/-- The midpoint above a magnitude is at least half a step of its exponent away. -/
theorem le_midpoint_above (hLow : shift = 0 ∨ 2 ^ 52 ≤ significand) (hHigh : significand ≤ 2 ^ 53) :
    2 * (significand * 2 ^ shift) + 2 ^ shift ≤
      unitsAt (shift * 2 ^ 52 + significand) + unitsAt (shift * 2 ^ 52 + significand + 1) := by
  have hOwn := unitsAt_shifted hLow hHigh
  rcases Nat.lt_or_eq_of_le hHigh with hLess | rfl
  · have hNext : unitsAt (shift * 2 ^ 52 + significand + 1) = (significand + 1) * 2 ^ shift := by
      rw [Nat.add_assoc]
      exact unitsAt_shifted (by omega) (by omega)
    rw [hOwn, hNext, Nat.succ_mul significand]
    omega
  · have hPosition : shift * 2 ^ 52 + 2 ^ 53 + 1 = (shift + 1) * 2 ^ 52 + (2 ^ 52 + 1) := by omega
    have hDouble : 2 ^ (shift + 1) = 2 * 2 ^ shift := Nat.pow_succ'
    rw [hOwn, hPosition, unitsAt_shifted (.inr (by decide)) (by decide), hDouble]
    omega

/-- The midpoint below a magnitude is half a step of its exponent away, unless the magnitude is the
first of its exponent. -/
theorem midpoint_below (hPositive : 0 < significand) (hLow : shift = 0 ∨ 2 ^ 52 < significand)
    (hHigh : significand ≤ 2 ^ 53) :
    unitsAt (shift * 2 ^ 52 + significand - 1) + unitsAt (shift * 2 ^ 52 + significand) + 2 ^ shift =
      2 * (significand * 2 ^ shift) := by
  obtain ⟨before, rfl⟩ : ∃ before, significand = before + 1 := ⟨significand - 1, by omega⟩
  have hBefore : unitsAt (shift * 2 ^ 52 + (before + 1) - 1) = before * 2 ^ shift := by
    rw [← Nat.add_assoc, Nat.add_sub_cancel]
    exact unitsAt_shifted (by omega) (by omega)
  rw [hBefore, unitsAt_shifted (by omega) hHigh, Nat.succ_mul before]
  omega

end Shifted

/-- Whether a fraction of units lies between the midpoints around the magnitude at a position, and on
neither of them if the position is odd. -/
structure Rounds (position numerator denominator : Nat) : Prop where
  low : (unitsAt (position - 1) + unitsAt position) * denominator ≤ 2 * numerator
  high : 2 * numerator ≤ (unitsAt position + unitsAt (position + 1)) * denominator
  low_of_odd : position % 2 = 1 →
    (unitsAt (position - 1) + unitsAt position) * denominator < 2 * numerator
  high_of_odd : position % 2 = 1 →
    2 * numerator < (unitsAt position + unitsAt (position + 1)) * denominator

section Rounds

variable {position other numerator denominator : Nat}

/-- A fraction does not round to two positions, the first being the smaller. -/
theorem Rounds.not_lt (hDenominator : 0 < denominator) (h : Rounds position numerator denominator)
    (hOther : Rounds other numerator denominator) :
    ¬position < other := by
  intro hLess
  have hLower := unitsAt_le_unitsAt (Nat.le_sub_one_of_lt hLess)
  have hUpper := unitsAt_le_unitsAt (show position + 1 ≤ other from hLess)
  have hMidpoints : (unitsAt position + unitsAt (position + 1)) * denominator ≤
      (unitsAt (other - 1) + unitsAt other) * denominator :=
    Nat.mul_le_mul_right _ (by omega)
  have hHigh := h.high
  have hLow := hOther.low
  -- The fraction is a midpoint, so both positions are even and another lies between them.
  by_cases hNext : position % 2 = 1 ∨ other % 2 = 1
  · rcases hNext with hOdd | hOdd
    · have := h.high_of_odd hOdd
      omega
    · have := hOther.low_of_odd hOdd
      omega
  · have hBetween : unitsAt position < unitsAt (other - 1) :=
      unitsAt_lt_unitsAt (by omega)
    have hStrict : (unitsAt position + unitsAt (position + 1)) * denominator <
        (unitsAt (other - 1) + unitsAt other) * denominator :=
      Nat.mul_lt_mul_of_pos_right (by omega) hDenominator
    omega

/-- A fraction rounds to one position only. -/
theorem Rounds.unique (hDenominator : 0 < denominator) (h : Rounds position numerator denominator)
    (hOther : Rounds other numerator denominator) :
    position = other :=
  Nat.le_antisymm (Nat.not_lt.1 (hOther.not_lt hDenominator h))
    (Nat.not_lt.1 (h.not_lt hDenominator hOther))

/-- Rounding looks at the value of the fraction only. -/
theorem rounds_mul_iff {factor : Nat} (hFactor : 0 < factor) :
    Rounds position (numerator * factor) (denominator * factor) ↔
      Rounds position numerator denominator := by
  have hLess : ∀ a b : Nat, a * factor < b * factor ↔ a < b :=
    fun a b => Nat.mul_lt_mul_right hFactor
  have hLe : ∀ a b : Nat, a * factor ≤ b * factor ↔ a ≤ b :=
    fun a b => Nat.mul_le_mul_right_iff hFactor
  constructor
  · rintro ⟨hLow, hHigh, hLowOdd, hHighOdd⟩
    simp only [← Nat.mul_assoc, hLess, hLe] at hLow hHigh hLowOdd hHighOdd
    exact ⟨hLow, hHigh, hLowOdd, hHighOdd⟩
  · rintro ⟨hLow, hHigh, hLowOdd, hHighOdd⟩
    constructor <;> simp only [← Nat.mul_assoc, hLess, hLe] <;> assumption

/-- What is not above a magnitude is not rounded above it. -/
theorem Rounds.le_of_le_unitsAt {bound : Nat} (h : Rounds position numerator 1) (hBound : numerator ≤ unitsAt bound) :
    position ≤ bound := by
  by_contra hAbove
  have hLow := h.low
  have hBefore := unitsAt_le_unitsAt (show bound ≤ position - 1 by omega)
  have hHere := unitsAt_lt_unitsAt (show bound < position by omega)
  omega

/-- What is not below a magnitude is not rounded below it. -/
theorem Rounds.le_of_unitsAt_le {bound : Nat} (h : Rounds position numerator 1) (hBound : unitsAt bound ≤ numerator) :
    bound ≤ position := by
  by_contra hBelow
  have hHigh := h.high
  have hAfter := unitsAt_le_unitsAt (show position + 1 ≤ bound by omega)
  have hHere := unitsAt_lt_unitsAt (show position < bound by omega)
  omega

end Rounds

/-- The shift is chosen so that the quotient has at most 53 bits, and just as many if there is a
shift. -/
theorem quotient_lt_of_shift (quotient : Nat) :
    quotient / 2 ^ (quotient.log2 - 52) < 2 ^ 53 ∧
      (quotient.log2 - 52 = 0 ∨ 2 ^ 52 ≤ quotient / 2 ^ (quotient.log2 - 52)) := by
  have hPower := Nat.two_pow_pos (quotient.log2 - 52)
  constructor
  · rw [Nat.div_lt_iff_lt_mul hPower, ← Nat.pow_add]
    exact Nat.lt_of_lt_of_le Nat.lt_log2_self (Nat.pow_le_pow_right (by decide) (by omega))
  · by_cases hShift : quotient.log2 - 52 = 0
    · exact .inl hShift
    · refine .inr ?_
      have hNonzero : quotient ≠ 0 := by
        rintro rfl
        simp at hShift
      rw [Nat.le_div_iff_mul_le hPower, ← Nat.pow_add, Nat.add_sub_cancel' (by omega)]
      exact Nat.log2_self_le hNonzero

/-- A fraction rounds to a position whose significand is the rounded quotient. -/
theorem rounds_shifted {shift numerator denominator significand : Nat} (h : 0 < denominator)
    (hSignificand : roundedQuotient numerator (denominator * 2 ^ shift) = significand)
    (hQuotient : numerator / (denominator * 2 ^ shift) < 2 ^ 53)
    (hFull : shift = 0 ∨ 2 ^ 52 ≤ numerator / (denominator * 2 ^ shift)) :
    Rounds (shift * 2 ^ 52 + significand) numerator denominator := by
  have hStep : 0 < denominator * 2 ^ shift := Nat.mul_pos h (Nat.two_pow_pos shift)
  obtain ⟨hLeast, hMost⟩ := le_roundedQuotient numerator (denominator * 2 ^ shift)
  obtain ⟨hBelow, hAbove, hOdd⟩ := roundedQuotient_bounds numerator hStep
  rw [hSignificand] at hLeast hMost hBelow hAbove hOdd
  have hParity : (shift * 2 ^ 52 + significand) % 2 = significand % 2 := by omega
  have hHigh : 2 * (significand * (denominator * 2 ^ shift)) + denominator * 2 ^ shift ≤
      (unitsAt (shift * 2 ^ 52 + significand) + unitsAt (shift * 2 ^ 52 + significand + 1)) *
        denominator := by
    have hMidpoint := le_midpoint_above (show shift = 0 ∨ 2 ^ 52 ≤ significand by omega) (by omega)
    refine Nat.le_trans (Nat.le_of_eq ?_) (Nat.mul_le_mul_right denominator hMidpoint)
    ring
  have hLow : (unitsAt (shift * 2 ^ 52 + significand - 1) +
      unitsAt (shift * 2 ^ 52 + significand)) * denominator ≤ 2 * numerator ∧
      (significand % 2 = 1 → (unitsAt (shift * 2 ^ 52 + significand - 1) +
        unitsAt (shift * 2 ^ 52 + significand)) * denominator < 2 * numerator) := by
    by_cases hZero : shift * 2 ^ 52 + significand = 0
    · rw [hZero, unitsAt_of_lt (by decide)]
      omega
    · by_cases hFirst : shift ≠ 0 ∧ significand = 2 ^ 52
      · -- The magnitude before has a smaller exponent, and the fraction is not below this one.
        obtain ⟨hShift, rfl⟩ := hFirst
        have hBefore := unitsAt_lt_unitsAt_succ (shift * 2 ^ 52 + 2 ^ 52 - 1)
        rw [Nat.sub_add_cancel (by omega)] at hBefore
        have hWhole : unitsAt (shift * 2 ^ 52 + 2 ^ 52) * denominator ≤ numerator := by
          rw [unitsAt_shifted (by omega) (by decide), Nat.mul_assoc, Nat.mul_comm (2 ^ shift)]
          exact (Nat.le_div_iff_mul_le hStep).1 (by omega)
        have hSum := Nat.mul_le_mul_right denominator (Nat.le_of_lt hBefore)
        rw [Nat.add_mul]
        exact ⟨by omega, by omega⟩
      · have hMidpoint := congrArg (· * denominator) (midpoint_below (by omega)
          (show shift = 0 ∨ 2 ^ 52 < significand by omega) (by omega))
        have hProduct : 2 * (significand * 2 ^ shift) * denominator =
            2 * (significand * (denominator * 2 ^ shift)) := by ring
        simp only [Nat.add_mul _ (2 ^ shift), Nat.mul_comm (2 ^ shift) denominator, hProduct]
          at hMidpoint
        exact ⟨by omega, fun hPosition => by have := hOdd hPosition; omega⟩
  refine ⟨hLow.1, Nat.le_trans hAbove hHigh, fun hPosition => hLow.2 (by omega),
    fun hPosition => Nat.lt_of_lt_of_le (hOdd (by omega)).2 hHigh⟩

/-- Every fraction rounds to the position that is found for it. -/
theorem rounds_nearest (numerator : Nat) {denominator : Nat} (h : 0 < denominator) :
    Rounds (nearest numerator denominator) numerator denominator := by
  obtain ⟨hQuotient, hFull⟩ := quotient_lt_of_shift (numerator / denominator)
  rw [Nat.div_div_eq_div_mul] at hQuotient hFull
  simp only [nearest, Nat.pow_eq]
  exact rounds_shifted h rfl hQuotient hFull

/-- The position that is found is the one that the fraction rounds to. -/
theorem nearest_eq_iff {numerator denominator position : Nat} (h : 0 < denominator) :
    nearest numerator denominator = position ↔ Rounds position numerator denominator :=
  ⟨fun hEq => hEq ▸ rounds_nearest numerator h,
    fun hRounds => (rounds_nearest numerator h).unique h hRounds⟩

end Binary64

end CborPath
