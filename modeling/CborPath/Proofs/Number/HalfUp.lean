import CborPath.Number.Arithmetic
import CborPath.Proofs.Number.Rounding
import CborPath.Proofs.Number.Whole

/-!
# Adding one half

The nearest integer is found as the floor of the sum with one half.  The sum is rounded itself, and this
matters at two kinds of numbers, where it reaches the next integer: the greatest number below one half, and
the odd integers between `2 ^ 52` and `2 ^ 53`, to which one half cannot be added.  Everywhere else the
floor is that of the exact sum.  All of this is about units: magnitudes are sorted by the exponent, which
tells whether one half is a multiple of their step.
-/

namespace CborPath

namespace Binary64

/-- How many units make one half. -/
def unitsPerHalf : Nat := Nat.pow 2 1073

/-- How many units the greatest number below one half is away from it. -/
def unitsBelowHalf : Nat := Nat.pow 2 1020

theorem unitsPerOne_eq : unitsPerOne = 2 * unitsPerHalf := by
  decide +kernel

theorem unitsPerHalf_eq : unitsPerHalf = 2 ^ 53 * unitsBelowHalf := by
  decide +kernel

theorem unitsPerHalf_pos : 0 < unitsPerHalf := by
  decide +kernel

theorem unitsBelowHalf_pos : 0 < unitsBelowHalf := by
  decide +kernel

/-- The number one is at the beginning of an exponent. -/
theorem unitsAt_one : unitsAt (1023 * 2 ^ 52) = unitsPerOne := by
  decide +kernel

/-- The step below one is twice the step below one half. -/
theorem unitsAt_below_one : unitsAt (1023 * 2 ^ 52 - 1) + 2 * unitsBelowHalf = unitsPerOne := by
  decide +kernel

/-- Up to the middle before the next integer the floor is the same. -/
theorem div_unitsPerOne_eq {units k : Nat} (hLow : k * unitsPerOne ≤ units)
    (hHigh : units ≤ k * unitsPerOne + unitsPerHalf) : units / unitsPerOne = k := by
  have hOne := unitsPerOne_eq
  have hPos := unitsPerHalf_pos
  rw [Nat.div_eq_iff (by omega)]
  omega

theorem two_pow_mul_two_pow_eq {shift : Nat} (h : shift ≤ 1073) :
    2 ^ (1073 - shift) * 2 ^ shift = unitsPerHalf := by
  delta unitsPerHalf
  generalize 1073 = most at *
  rw [Nat.pow_eq, ← Nat.pow_add, Nat.sub_add_cancel h]

theorem two_pow_mul_unitsPerOne {shift : Nat} (h : 1074 ≤ shift) :
    2 ^ (shift - 1074) * unitsPerOne = 2 ^ shift := by
  delta unitsPerOne
  generalize 1074 = least at *
  rw [Nat.pow_eq, ← Nat.pow_add, Nat.sub_add_cancel h]

/-- A significand of 53 bits, or the first one of 54, times a power of two up to one is a finite magnitude. -/
theorem exists_finite_unitsAt_eq {significand shift : Nat} (h : significand ≤ 2 ^ 53)
    (hShift : shift ≤ 1074) :
    ∃ position < finiteCount, unitsAt position = significand * 2 ^ shift := by
  have hCount : 2 ^ 53 + 1127 * 2 ^ 52 < finiteCount := by decide
  rcases Nat.lt_or_eq_of_le h with hLess | rfl
  · obtain ⟨position, hUnits, hBound⟩ := exists_unitsAt_eq_mul_pow hLess shift
    exact ⟨position, by omega, hUnits⟩
  · obtain ⟨position, hUnits, hBound⟩ := exists_unitsAt_eq_mul_pow (show 1 < 2 ^ 53 by decide) (53 + shift)
    exact ⟨position, by omega, by rw [hUnits, Nat.one_mul, Nat.pow_add]⟩

/-- Whether a whole number of units becomes a finite number when it is rounded, and this has a floor. -/
def FloorsTo (total k : Int) : Prop :=
  ∃ position < finiteCount, Rounds position total.natAbs 1 ∧
    (if total < 0 then -(unitsAt position : Int) else unitsAt position) / unitsPerOne = k

section FloorsTo

variable {total : Int} {units k : Nat}

/-- The units of a magnitude are not changed. -/
theorem floorsTo_of_exact {significand shift : Nat} (hSignificand : significand ≤ 2 ^ 53)
    (hShift : shift ≤ 1074) (hTotal : total.natAbs = significand * 2 ^ shift) :
    FloorsTo total (total / unitsPerOne) := by
  obtain ⟨position, hFinite, hUnits⟩ := exists_finite_unitsAt_eq hSignificand hShift
  rw [← hTotal] at hUnits
  refine ⟨position, hFinite, (nearest_eq_iff Nat.one_pos).1 (hUnits ▸ nearest_unitsAt position), ?_⟩
  rw [hUnits]
  congr 1
  split <;> omega

/-- From an integer up to the middle before the next one, the floor is that integer. -/
theorem floorsTo_of_bounds (hLow : k * unitsPerOne ≤ units)
    (hHigh : units ≤ k * unitsPerOne + unitsPerHalf) (hSmall : 2 * k + 1 < 2 ^ 53) :
    FloorsTo units k := by
  have hHalf : unitsPerHalf = 1 * 2 ^ 1073 := by decide +kernel
  obtain ⟨low, -, hLowUnits⟩ := exists_finite_unitsAt_eq (show 2 * k ≤ 2 ^ 53 by omega)
    (show 1073 ≤ 1074 by decide)
  obtain ⟨high, hFinite, hHighUnits⟩ := exists_finite_unitsAt_eq (Nat.le_of_lt hSmall)
    (show 1073 ≤ 1074 by decide)
  rw [Nat.one_mul] at hHalf
  rw [← hHalf, Nat.mul_comm 2, Nat.mul_assoc, ← unitsPerOne_eq] at hLowUnits
  rw [← hHalf, Nat.succ_mul, Nat.mul_comm 2, Nat.mul_assoc, ← unitsPerOne_eq] at hHighUnits
  have hRounds := rounds_nearest units Nat.one_pos
  generalize nearest units 1 = position at hRounds
  have hAbove := unitsAt_le_unitsAt (hRounds.le_of_unitsAt_le (hLowUnits ▸ hLow))
  have hBelow := hRounds.le_of_le_unitsAt (hHighUnits ▸ hHigh)
  have hMost := unitsAt_le_unitsAt hBelow
  refine ⟨position, Nat.lt_of_le_of_lt hBelow hFinite, hRounds, ?_⟩
  rw [if_neg (by omega), ← Int.natCast_ediv,
    div_unitsPerOne_eq (hLowUnits ▸ hAbove) (hHighUnits ▸ hMost)]

end FloorsTo

section Fractions

variable {units significand shift : Nat}

/-- Close to one half there are no other magnitudes below it. -/
theorem add_unitsBelowHalf_eq (hSignificand : significand < 2 ^ 53)
    (hLess : significand * 2 ^ shift < unitsPerHalf)
    (hNear : unitsPerHalf ≤ significand * 2 ^ shift + unitsBelowHalf) :
    significand * 2 ^ shift + unitsBelowHalf = unitsPerHalf := by
  have hHalf := unitsPerHalf_eq
  have hPos := unitsBelowHalf_pos
  rcases Nat.lt_or_ge shift 1020 with hSmall | hLarge
  · have hPower : 2 ^ (shift + 1) ≤ unitsBelowHalf := by
      delta unitsBelowHalf
      generalize 1020 = most at *
      exact Nat.pow_le_pow_right (by decide) hSmall
    have hMost := Nat.mul_lt_mul_of_pos_right hSignificand (Nat.two_pow_pos shift)
    rw [Nat.pow_succ'] at hPower
    omega
  · have hPower : 2 ^ (shift - 1020) * unitsBelowHalf = 2 ^ shift := by
      delta unitsBelowHalf
      generalize 1020 = least at *
      rw [Nat.pow_eq, ← Nat.pow_add, Nat.sub_add_cancel hLarge]
    rw [← hPower, ← Nat.mul_assoc, hHalf] at hLess hNear ⊢
    generalize significand * 2 ^ (shift - 1020) = factor at *
    rw [← Nat.succ_mul] at hNear ⊢
    have hBelow := Nat.lt_of_mul_lt_mul_right hLess
    have hAbove := Nat.le_of_mul_le_mul_right hNear hPos
    rw [Nat.le_antisymm hBelow hAbove]

/-- With less than that, the sum stays below one. -/
theorem floorsTo_zero (h : units + unitsBelowHalf < unitsPerHalf) :
    FloorsTo ((units + unitsPerHalf : Nat) : Int) 0 := by
  have hOne := unitsAt_one
  have hBefore := unitsAt_below_one
  have hHalf := unitsPerOne_eq
  have hCount : 1023 * 2 ^ 52 < finiteCount := by decide
  have hRounds := rounds_nearest (units + unitsPerHalf) Nat.one_pos
  generalize nearest (units + unitsPerHalf) 1 = position at hRounds
  have hBelow : position < 1023 * 2 ^ 52 := by
    by_contra hAbove
    have hLow := hRounds.low
    have hHere := unitsAt_le_unitsAt (Nat.le_of_not_lt hAbove)
    have hThere := unitsAt_le_unitsAt (Nat.sub_le_sub_right (Nat.le_of_not_lt hAbove) 1)
    omega
  have hLess := unitsAt_lt_unitsAt hBelow
  refine ⟨position, by omega, hRounds, ?_⟩
  rw [if_neg (by omega), ← Int.natCast_ediv, Nat.div_eq_of_lt (hOne ▸ hLess)]
  rfl

/-- The number just below one half has a sum that is rounded to one. -/
theorem floorsTo_one (h : units + unitsBelowHalf = unitsPerHalf) :
    FloorsTo ((units + unitsPerHalf : Nat) : Int) 1 := by
  have hOne := unitsAt_one
  have hBefore := unitsAt_below_one
  have hAfter := unitsAt_lt_unitsAt_succ (1023 * 2 ^ 52)
  have hHalf := unitsPerOne_eq
  refine ⟨1023 * 2 ^ 52, by decide, ⟨?_, ?_, fun hOdd => ?_, fun hOdd => ?_⟩, ?_⟩
  · rw [Int.natAbs_natCast, Nat.mul_one]
    omega
  · rw [Int.natAbs_natCast, Nat.mul_one]
    omega
  · exact absurd hOdd (by decide)
  · exact absurd hOdd (by decide)
  · rw [if_neg (by omega), hOne]
    exact Int.ediv_self (by have := unitsPerOne_pos; omega)

/-- From one half on, adding one half is exact unless this leads to the next exponent, and then the sum is
an integer and less than one half. -/
theorem floorsTo_add (hSignificand : significand < 2 ^ 53) (hShift : shift ≤ 1073)
    (hHalf : unitsPerHalf ≤ significand * 2 ^ shift) :
    FloorsTo ((significand * 2 ^ shift + unitsPerHalf : Nat) : Int)
      (((significand * 2 ^ shift + unitsPerHalf : Nat) : Int) / unitsPerOne) := by
  have hPower := two_pow_mul_two_pow_eq hShift
  by_cases hExact : significand + 2 ^ (1073 - shift) ≤ 2 ^ 53
  · refine floorsTo_of_exact hExact (Nat.le_succ_of_le hShift) ?_
    rw [Int.natAbs_natCast, Nat.add_mul, hPower]
  · have hCrossing := Nat.lt_of_not_le hExact
    have hFactor : 2 ^ (1073 - shift) ≤ significand := by
      rw [← hPower] at hHalf
      exact Nat.le_of_mul_le_mul_right hHalf (Nat.two_pow_pos shift)
    have hMost : 1073 - shift < 53 :=
      (Nat.pow_lt_pow_iff_right (by decide)).1 (Nat.lt_of_le_of_lt hFactor hSignificand)
    have hLeast : 1073 - shift ≠ 0 := by
      intro hZero
      rw [hZero] at hCrossing
      omega
    -- The next exponent begins at the integer `2 ^ (52 - (1073 - shift))`.
    have hStart : 2 ^ (52 - (1073 - shift)) * unitsPerOne = 2 ^ 53 * 2 ^ shift := by
      rw [unitsPerOne_eq, ← hPower, ← Nat.mul_assoc, ← Nat.mul_assoc, ← Nat.pow_succ, ← Nat.pow_add]
      congr 2
      omega
    have hSmall : 2 * 2 ^ (52 - (1073 - shift)) + 1 < 2 ^ 53 := by
      have hBound : 2 ^ (52 - (1073 - shift)) ≤ 2 ^ 51 := Nat.pow_le_pow_right (by decide) (by omega)
      omega
    have hLow : 2 ^ (52 - (1073 - shift)) * unitsPerOne ≤ significand * 2 ^ shift + unitsPerHalf := by
      rw [hStart, ← hPower, ← Nat.add_mul]
      exact Nat.mul_le_mul_right _ (Nat.le_of_lt hCrossing)
    have hHigh : significand * 2 ^ shift + unitsPerHalf ≤
        2 ^ (52 - (1073 - shift)) * unitsPerOne + unitsPerHalf := by
      rw [hStart]
      exact Nat.add_le_add_right (Nat.mul_le_mul_right _ (Nat.le_of_lt hSignificand)) _
    rw [← Int.natCast_ediv, div_unitsPerOne_eq hLow hHigh]
    exact floorsTo_of_bounds hLow hHigh hSmall

/-- One half less a smaller magnitude is between zero and one half. -/
theorem floorsTo_sub_of_le (h : units ≤ unitsPerHalf) :
    FloorsTo (-(units : Int) + unitsPerHalf) 0 := by
  have hTotal : -(units : Int) + unitsPerHalf = ((unitsPerHalf - units : Nat) : Int) := by omega
  rw [hTotal]
  exact floorsTo_of_bounds (k := 0) (by omega) (by omega) (by decide)

/-- Subtracting one half from a greater magnitude is exact. -/
theorem floorsTo_sub_of_lt (hSignificand : significand ≤ 2 ^ 53) (hShift : shift ≤ 1073)
    (hHalf : unitsPerHalf < significand * 2 ^ shift) :
    FloorsTo (-((significand * 2 ^ shift : Nat) : Int) + unitsPerHalf)
      ((-((significand * 2 ^ shift : Nat) : Int) + unitsPerHalf) / unitsPerOne) := by
  have hPower := two_pow_mul_two_pow_eq hShift
  refine floorsTo_of_exact (Nat.le_trans (Nat.sub_le _ (2 ^ (1073 - shift))) hSignificand)
    (Nat.le_succ_of_le hShift) ?_
  rw [Nat.sub_mul, hPower]
  omega

end Fractions

section Integers

variable {k significand shift : Nat}

/-- In the middle between two great integers the even one is taken. -/
theorem floorsTo_tie (hLow : 2 ^ 52 ≤ k) (hHigh : k < 2 ^ 53) (total : Int)
    (hTotal : total.natAbs = k * unitsPerOne + unitsPerHalf) :
    FloorsTo total (if total < 0 then -((k + k % 2 : Nat) : Int) else (k + k % 2 : Nat)) := by
  have hOne := unitsPerOne_eq
  have hPos := unitsPerHalf_pos
  have hPower : 2 ^ 1074 = unitsPerOne := by decide +kernel
  have hQuotient : (k * unitsPerOne + unitsPerHalf) / unitsPerOne = k :=
    div_unitsPerOne_eq (Nat.le_add_right _ _) (Nat.le_refl _)
  have hRest : (k * unitsPerOne + unitsPerHalf) % unitsPerOne = unitsPerHalf := by
    rw [Nat.mul_add_mod', Nat.mod_eq_of_lt (by omega)]
  have hRounded : roundedQuotient (k * unitsPerOne + unitsPerHalf) unitsPerOne = k + k % 2 := by
    rw [roundedQuotient, hQuotient, hRest, if_neg (by omega), if_neg (by omega)]
  have hUnits : unitsAt (1074 * 2 ^ 52 + (k + k % 2)) = (k + k % 2) * unitsPerOne := by
    rw [unitsAt_shifted (.inr (by omega)) (by omega), hPower]
  refine ⟨1074 * 2 ^ 52 + (k + k % 2), ?_, ?_, ?_⟩
  · have hCount : 1074 * 2 ^ 52 + 2 ^ 53 < finiteCount := by decide
    omega
  · rw [hTotal]
    refine rounds_shifted Nat.one_pos ?_ ?_ (.inr ?_)
    · rw [hPower, Nat.one_mul, hRounded]
    · rw [hPower, Nat.one_mul, hQuotient]
      exact hHigh
    · rw [hPower, Nat.one_mul, hQuotient]
      exact hLow
  · rw [hUnits, Int.natCast_mul]
    split
    · rw [← Int.neg_mul, Int.mul_ediv_cancel _ (by omega)]
    · rw [Int.mul_ediv_cancel _ (by omega)]

/-- Adding one half to a still greater integer, or to its opposite, does not change it. -/
theorem rounds_great (hShift : 1075 ≤ shift) (hLow : 2 ^ 52 ≤ significand) (hHigh : significand < 2 ^ 53)
    {units : Nat} (hBelow : significand * 2 ^ shift ≤ units + unitsPerHalf)
    (hAbove : units ≤ significand * 2 ^ shift + unitsPerHalf) :
    Rounds (shift * 2 ^ 52 + significand) units 1 := by
  have hOne := unitsPerOne_eq
  have hPos := unitsPerHalf_pos
  have hPower : 2 * unitsPerOne ≤ 2 ^ shift := by
    have hFactor : 2 ^ 1 ≤ 2 ^ (shift - 1074) := Nat.pow_le_pow_right (by decide) (by omega)
    rw [← two_pow_mul_unitsPerOne (Nat.le_of_succ_le hShift)]
    exact Nat.mul_le_mul_right _ hFactor
  have hNext := le_midpoint_above (.inr hLow : shift = 0 ∨ _) (Nat.le_of_lt hHigh)
  have hHere : unitsAt (shift * 2 ^ 52 + significand) = significand * 2 ^ shift :=
    unitsAt_shifted (.inr hLow) (Nat.le_of_lt hHigh)
  have hBefore : unitsAt (shift * 2 ^ 52 + significand - 1) + unitsAt (shift * 2 ^ 52 + significand) ≤
        2 * units ∧ ((shift * 2 ^ 52 + significand) % 2 = 1 →
      unitsAt (shift * 2 ^ 52 + significand - 1) + unitsAt (shift * 2 ^ 52 + significand) < 2 * units) := by
    rcases Nat.eq_or_lt_of_le hLow with hFirst | hLater
    · -- The first integer with its exponent has the step of the exponent before below it.
      subst hFirst
      obtain ⟨before, rfl⟩ : ∃ before, shift = before + 1 := ⟨shift - 1, by omega⟩
      have hPosition : (before + 1) * 2 ^ 52 + 2 ^ 52 = before * 2 ^ 52 + 2 ^ 53 := by omega
      have hMiddle := midpoint_below (show 0 < 2 ^ 53 by decide) (.inr (by decide) : before = 0 ∨ _)
        (Nat.le_refl (2 ^ 53))
      rw [Nat.pow_succ'] at hPower hBelow
      rw [hPosition]
      exact ⟨by omega, fun hOdd => by omega⟩
    · have hMiddle := midpoint_below (show 0 < significand by omega) (.inr hLater : shift = 0 ∨ _)
        (Nat.le_of_lt hHigh)
      exact ⟨by omega, fun _ => by omega⟩
  refine ⟨?_, ?_, fun hOdd => ?_, fun hOdd => ?_⟩
  · rw [Nat.mul_one]
    exact hBefore.1
  · rw [Nat.mul_one]
    omega
  · rw [Nat.mul_one]
    exact hBefore.2 hOdd
  · rw [Nat.mul_one]
    omega

end Integers

/-- Whether the sum of a number of units with one half is rounded to the next integer, or past it. -/
def OvershootsAt (total : Int) : Prop :=
  total + unitsBelowHalf = unitsPerHalf ∨
    ∃ m : Int, total = m * unitsPerOne ∧ m % 2 = 1 ∧ 2 ^ 52 < m.natAbs ∧ m.natAbs < 2 ^ 53

/-- Whether adding one half to a number of units and taking the floor gives the nearest integer, halves
going up, or the next one where the sum overshoots. -/
structure RoundsHalfUp (total : Int) : Prop where
  floor (h : ¬OvershootsAt total) : FloorsTo (total + unitsPerHalf) ((total + unitsPerHalf) / unitsPerOne)
  next (h : OvershootsAt total) :
    FloorsTo (total + unitsPerHalf) ((total + unitsPerHalf) / unitsPerOne + 1)

section RoundsHalfUp

variable {significand shift : Nat}

/-- Below the great integers only the number just below one half overshoots. -/
theorem overshootsAt_iff (total : Int) (h : total.natAbs < 2 ^ 52 * unitsPerOne) :
    OvershootsAt total ↔ total + unitsBelowHalf = unitsPerHalf := by
  refine ⟨fun hOver => hOver.resolve_right ?_, .inl⟩
  rintro ⟨m, rfl, -, hGreat, -⟩
  rw [Int.natAbs_mul, Int.natAbs_natCast] at h
  exact absurd (Nat.lt_of_mul_lt_mul_right h) (Nat.lt_asymm hGreat)

/-- Of the integers, the odd ones between `2 ^ 52` and `2 ^ 53` overshoot, and their opposites. -/
theorem overshootsAt_mul_iff (m : Int) :
    OvershootsAt (m * unitsPerOne) ↔ m % 2 = 1 ∧ 2 ^ 52 < m.natAbs ∧ m.natAbs < 2 ^ 53 := by
  have hOne := unitsPerOne_eq
  have hHalf := unitsPerHalf_eq
  have hPos := unitsBelowHalf_pos
  constructor
  · rintro (hBelow | ⟨n, hEq, hOver⟩)
    · have hFloor : (m * unitsPerOne + unitsBelowHalf) / (unitsPerOne : Int) = m := by
        rw [Int.add_comm, Int.add_mul_ediv_right _ _ (by omega), Int.ediv_eq_zero_of_lt] <;> omega
      have hZero : (unitsPerHalf : Int) / unitsPerOne = 0 := Int.ediv_eq_zero_of_lt (by omega) (by omega)
      rw [hBelow, hZero] at hFloor
      subst hFloor
      omega
    · rw [Int.eq_of_mul_eq_mul_right (by omega) hEq]
      exact hOver
  · exact fun hOver => .inr ⟨m, rfl, hOver⟩

theorem mul_add_half_ediv (m : Int) :
    (m * unitsPerOne + unitsPerHalf) / unitsPerOne = m := by
  have hOne := unitsPerOne_eq
  have hPos := unitsPerHalf_pos
  rw [Int.add_comm, Int.add_mul_ediv_right _ _ (by omega), Int.ediv_eq_zero_of_lt] <;> omega

/-- Magnitudes with small exponents are below the great integers. -/
theorem mul_two_pow_lt (hSignificand : significand < 2 ^ 53) (hShift : shift ≤ 1073) :
    significand * 2 ^ shift < 2 ^ 52 * unitsPerOne := by
  have hPower := two_pow_mul_two_pow_eq hShift
  have hStep : 2 ^ shift ≤ unitsPerHalf := by
    rw [← hPower]
    exact Nat.le_mul_of_pos_left _ (Nat.two_pow_pos _)
  have hMost := Nat.mul_lt_mul_of_pos_right hSignificand (Nat.two_pow_pos shift)
  rw [unitsPerOne_eq]
  omega

/-- Numbers with small exponents round half up. -/
theorem roundsHalfUp_small (hSignificand : significand < 2 ^ 53) (hShift : shift ≤ 1073) (negative : Bool) :
    RoundsHalfUp (if negative then -((significand * 2 ^ shift : Nat) : Int)
      else (significand * 2 ^ shift : Nat)) := by
  have hSmall := mul_two_pow_lt hSignificand hShift
  have hOne := unitsPerOne_eq
  have hHalf := unitsPerHalf_eq
  have hPos := unitsBelowHalf_pos
  cases negative with
  | false =>
      rw [if_neg Bool.false_ne_true]
      have hOver := overshootsAt_iff (significand * 2 ^ shift : Nat) (by omega)
      rcases Nat.lt_or_ge (significand * 2 ^ shift) unitsPerHalf with hLess | hGreater
      · have hZero : (((significand * 2 ^ shift : Nat) : Int) + unitsPerHalf) / unitsPerOne = 0 :=
          Int.ediv_eq_zero_of_lt (by omega) (by omega)
        refine ⟨fun h => ?_, fun h => ?_⟩
        · rw [hZero]
          rw [hOver] at h
          refine floorsTo_zero (Nat.lt_of_not_le fun hNear => h ?_)
          have hEq := add_unitsBelowHalf_eq hSignificand hLess hNear
          omega
        · rw [hZero]
          rw [hOver] at h
          exact floorsTo_one (by omega)
      · exact ⟨fun _ => floorsTo_add hSignificand hShift hGreater, fun h => by rw [hOver] at h; omega⟩
  | true =>
      rw [if_pos rfl]
      have hOver := overshootsAt_iff (-((significand * 2 ^ shift : Nat) : Int)) (by omega)
      refine ⟨fun _ => ?_, fun h => by rw [hOver] at h; omega⟩
      rcases Nat.lt_or_ge unitsPerHalf (significand * 2 ^ shift) with hGreater | hLess
      · exact floorsTo_sub_of_lt (Nat.le_of_lt hSignificand) hShift hGreater
      · have hZero : (-((significand * 2 ^ shift : Nat) : Int) + unitsPerHalf) / unitsPerOne = 0 :=
          Int.ediv_eq_zero_of_lt (by omega) (by omega)
        rw [hZero]
        exact floorsTo_sub_of_le hLess

/-- Integers are found again unless they overshoot, and these go to the even ones. -/
theorem roundsHalfUp_mul {m : Int}
    (h : FloorsTo (m * unitsPerOne + unitsPerHalf)
      (if m % 2 = 1 ∧ 2 ^ 52 < m.natAbs ∧ m.natAbs < 2 ^ 53 then m + 1 else m)) :
    RoundsHalfUp (m * unitsPerOne) := by
  refine ⟨fun hNot => ?_, fun hOver => ?_⟩
  · rw [overshootsAt_mul_iff] at hNot
    rw [mul_add_half_ediv]
    rwa [if_neg hNot] at h
  · rw [overshootsAt_mul_iff] at hOver
    rw [mul_add_half_ediv]
    rwa [if_pos hOver] at h

/-- Integers from `2 ^ 52` to `2 ^ 53` round half up. -/
theorem roundsHalfUp_middle (hLow : 2 ^ 52 ≤ significand) (hHigh : significand < 2 ^ 53) (negative : Bool) :
    RoundsHalfUp (if negative then -((significand * unitsPerOne : Nat) : Int)
      else (significand * unitsPerOne : Nat)) := by
  have hOne := unitsPerOne_eq
  have hPos := unitsPerHalf_pos
  cases negative with
  | false =>
      rw [if_neg Bool.false_ne_true, Int.natCast_mul]
      have hEven : (if (significand : Int) % 2 = 1 ∧ 2 ^ 52 < (significand : Int).natAbs ∧
          (significand : Int).natAbs < 2 ^ 53 then (significand : Int) + 1 else significand) =
            (significand + significand % 2 : Nat) := by
        split <;> omega
      have hTie := floorsTo_tie hLow hHigh ((significand * unitsPerOne + unitsPerHalf : Nat) : Int)
        (Int.natAbs_natCast _)
      rw [if_neg (by omega), Int.natCast_add, Int.natCast_mul, ← hEven] at hTie
      exact roundsHalfUp_mul hTie
  | true =>
      rw [if_pos rfl, Int.natCast_mul, ← Int.neg_mul]
      rcases Nat.eq_or_lt_of_le hLow with rfl | hLater
      · -- Here one half can be subtracted.
        have hStart : 2 ^ 53 * 2 ^ 1073 = 2 ^ 52 * unitsPerOne := by decide +kernel
        have hExact := floorsTo_sub_of_lt (Nat.le_refl (2 ^ 53)) (Nat.le_refl 1073) (by omega)
        rw [hStart, Int.natCast_mul, ← Int.neg_mul, mul_add_half_ediv] at hExact
        exact roundsHalfUp_mul (by rwa [if_neg (by omega)])
      · obtain ⟨k, rfl⟩ : ∃ k, significand = k + 1 := ⟨significand - 1, by omega⟩
        have hEven : (if -((k + 1 : Nat) : Int) % 2 = 1 ∧ 2 ^ 52 < (-((k + 1 : Nat) : Int)).natAbs ∧
            (-((k + 1 : Nat) : Int)).natAbs < 2 ^ 53 then -((k + 1 : Nat) : Int) + 1
              else -((k + 1 : Nat) : Int)) = -((k + k % 2 : Nat) : Int) := by
          split <;> omega
        have hTotal : -((k + 1 : Nat) : Int) * unitsPerOne + unitsPerHalf =
            -((k * unitsPerOne + unitsPerHalf : Nat) : Int) := by
          rw [Int.neg_mul, ← Int.natCast_mul, Nat.succ_mul]
          omega
        have hTie := floorsTo_tie (show 2 ^ 52 ≤ k by omega) (by omega)
          (-((k * unitsPerOne + unitsPerHalf : Nat) : Int)) (by rw [Int.natAbs_neg, Int.natAbs_natCast])
        rw [if_pos (by omega), ← hTotal, ← hEven] at hTie
        exact roundsHalfUp_mul hTie

/-- Still greater integers are left as they are. -/
theorem roundsHalfUp_great (hShift : 1075 ≤ shift) (hLow : 2 ^ 52 ≤ significand)
    (hHigh : significand < 2 ^ 53) (hFinite : shift * 2 ^ 52 + significand < finiteCount) (negative : Bool) :
    RoundsHalfUp (if negative then -((significand * 2 ^ shift : Nat) : Int)
      else (significand * 2 ^ shift : Nat)) := by
  have hOne := unitsPerOne_eq
  have hPos := unitsPerHalf_pos
  have hHere : unitsAt (shift * 2 ^ 52 + significand) = significand * 2 ^ shift :=
    unitsAt_shifted (.inr hLow) (Nat.le_of_lt hHigh)
  have hFactor : 2 ^ 1 ≤ 2 ^ (shift - 1074) := Nat.pow_le_pow_right (by decide) (by omega)
  have hGreat : 2 ^ 52 * 2 ^ 1 ≤ significand * 2 ^ (shift - 1074) := Nat.mul_le_mul hLow hFactor
  have hUnits : significand * 2 ^ shift = significand * 2 ^ (shift - 1074) * unitsPerOne := by
    rw [Nat.mul_assoc, two_pow_mul_unitsPerOne (Nat.le_of_succ_le hShift)]
  generalize significand * 2 ^ (shift - 1074) = k at hGreat hUnits
  have hLess : unitsPerOne ≤ k * unitsPerOne := Nat.le_mul_of_pos_left _ (by omega)
  have hOpposite : -(k : Int) * unitsPerOne = -((k * unitsPerOne : Nat) : Int) := by
    rw [Int.neg_mul, Int.natCast_mul]
  cases negative with
  | false =>
      rw [if_neg Bool.false_ne_true, hUnits, Int.natCast_mul]
      refine roundsHalfUp_mul ⟨_, hFinite, rounds_great hShift hLow hHigh ?_ ?_, ?_⟩
      · omega
      · omega
      · rw [hHere, hUnits, if_neg (by omega), if_neg (by omega), Int.natCast_mul]
        exact Int.mul_ediv_cancel _ (by omega)
  | true =>
      rw [if_pos rfl, hUnits, Int.natCast_mul, ← Int.neg_mul]
      refine roundsHalfUp_mul ⟨_, hFinite, rounds_great hShift hLow hHigh ?_ ?_, ?_⟩
      · omega
      · omega
      · rw [hHere, hUnits, if_pos (by omega), if_neg (by omega), Int.natCast_mul, ← Int.neg_mul]
        exact Int.mul_ediv_cancel _ (by omega)

/-- Adding one half to a finite number and taking the floor rounds half up. -/
theorem roundsHalfUp_signedUnits (negative : Bool) (position : Fin finiteCount) :
    RoundsHalfUp (signedUnits negative position) := by
  obtain ⟨position, hFinite⟩ := position
  obtain ⟨shift, significand, rfl, hLow, hHigh⟩ := exists_shift position
  rw [signedUnits, units, unitsAt_shifted hLow (Nat.le_of_lt hHigh)]
  rcases Nat.lt_trichotomy shift 1074 with hSmall | hEq | hGreat
  · exact roundsHalfUp_small hHigh (Nat.le_of_lt_succ hSmall) negative
  · have hPower : 2 ^ shift = unitsPerOne := by
      rw [← two_pow_mul_unitsPerOne (Nat.le_of_eq hEq.symm), hEq, Nat.sub_self, Nat.pow_zero, Nat.one_mul]
    rw [hPower]
    exact roundsHalfUp_middle (hLow.resolve_left (by omega)) hHigh negative
  · exact roundsHalfUp_great hGreat (hLow.resolve_left (by omega)) hHigh hFinite negative

end RoundsHalfUp

end Binary64

end CborPath
