import CborPath.Number.Arithmetic
import CborPath.Proofs.Number.Binary64

/-!
# Small whole numbers

Every whole number below `2 ^ 53` is a binary64 number exactly, and such numbers compare as the whole
numbers do.  So a number that lies outside a range of them, or between them, equals none of them.
-/

namespace CborPath

namespace Binary64

/-- Whether this is a whole number.  Infinities and not-a-number are none. -/
def isWhole : Binary64 → Bool
  | finite _ position => units position % unitsPerOne = 0
  | _ => false

/-- Twice a magnitude is a magnitude, one exponent farther on. -/
theorem exists_unitsAt_eq_double (position : Nat) :
    ∃ next, unitsAt next = 2 * unitsAt position ∧ next ≤ position + 2 ^ 52 := by
  by_cases hSmall : position < 2 ^ 52
  · refine ⟨2 * position, ?_, by omega⟩
    rw [unitsAt_of_lt (by omega), unitsAt_of_lt (by omega)]
  · refine ⟨position + 2 ^ 52, ?_, Nat.le_refl _⟩
    have hFraction : (position + 2 ^ 52) % 2 ^ 52 = position % 2 ^ 52 := by omega
    have hExponent : (position + 2 ^ 52) / 2 ^ 52 - 1 = position / 2 ^ 52 - 1 + 1 := by omega
    have hPower : 2 ^ (position / 2 ^ 52 - 1 + 1) = 2 * 2 ^ (position / 2 ^ 52 - 1) :=
      Nat.pow_succ'
    rw [unitsAt_of_le (by omega), unitsAt_of_le (by omega), hFraction, hExponent, hPower,
      Nat.mul_left_comm]

theorem unitsPerOne_pos : 0 < unitsPerOne := by
  decide +kernel

/-- A significand of 53 bits times a power of two is a magnitude. -/
theorem exists_unitsAt_eq_mul_pow {significand : Nat} (h : significand < 2 ^ 53) (shift : Nat) :
    ∃ position, unitsAt position = significand * 2 ^ shift ∧
      position ≤ significand + shift * 2 ^ 52 := by
  induction shift with
  | zero => exact ⟨significand, by rw [unitsAt_of_lt h, Nat.pow_zero, Nat.mul_one], by omega⟩
  | succ shift ih =>
      obtain ⟨position, hUnits, hBound⟩ := ih
      obtain ⟨next, hNext, hStep⟩ := exists_unitsAt_eq_double position
      refine ⟨next, ?_, by omega⟩
      rw [hNext, hUnits, Nat.pow_succ', Nat.mul_left_comm]

/-- A small whole number is a number exactly, with either sign. -/
theorem exists_ofFraction_eq_finite (negative : Bool) {n : Nat} (h : n < 2 ^ 53) :
    ∃ position, ofFraction negative n 1 = finite negative position ∧
      units position = n * unitsPerOne := by
  obtain ⟨position, hUnits, hBound⟩ := exists_unitsAt_eq_mul_pow h 1074
  have hCount : 2 ^ 53 + 1074 * 2 ^ 52 ≤ finiteCount := by decide
  have hSmall : position < finiteCount :=
    Nat.lt_of_le_of_lt hBound (Nat.lt_of_lt_of_le (Nat.add_lt_add_right h _) hCount)
  have hOne : unitsPerOne = 2 ^ 1074 := by
    decide +kernel
  have hWhole : unitsAt position = n * unitsPerOne := by
    rw [hUnits, hOne]
  have hNearest : nearest (n * unitsPerOne) 1 = position := by
    rw [← hWhole]
    exact nearest_unitsAt position
  refine ⟨⟨position, hSmall⟩, ?_, hWhole⟩
  rw [ofFraction, ofUnits]
  simp only [hNearest, dif_pos hSmall]

/-- A small whole number is the number that it is converted to. -/
theorem exists_ofNat_eq_finite {n : Nat} (h : n < 2 ^ 53) :
    ∃ position, ofNat n = finite false position ∧ units position = n * unitsPerOne :=
  exists_ofFraction_eq_finite false h

/-- Comparison the other way round. -/
theorem order?_swap (x y : Binary64) :
    order? y x = (order? x y).map Ordering.swap := by
  cases x with
  | nan => cases y <;> rfl
  | infinite s =>
      cases y with
      | nan => rfl
      | infinite t => exact congrArg some Std.OrientedOrd.eq_swap
      | finite t b => cases s <;> rfl
  | finite s a =>
      cases y with
      | nan => rfl
      | infinite t => cases t <;> rfl
      | finite t b => exact congrArg some Std.OrientedOrd.eq_swap

theorem equals_comm (x y : Binary64) :
    x.equals y = y.equals x := by
  rw [equals, equals, order?_swap y x]
  cases order? y x with
  | none => rfl
  | some order => cases order <;> rfl

section Whole

variable {x : Binary64} {k n : Nat}

/-- What equals a small whole number has as many units. -/
theorem exists_of_equals_ofNat (hSmall : k < 2 ^ 53) (h : x.equals (ofNat k) = true) :
    ∃ negative position, x = finite negative position ∧
      signedUnits negative position = (k * unitsPerOne : Nat) := by
  obtain ⟨whole, hWhole, hUnits⟩ := exists_ofNat_eq_finite hSmall
  rw [hWhole, equals, beq_iff_eq] at h
  cases x with
  | nan => cases h
  | infinite negative => cases negative <;> cases h
  | finite negative position =>
      refine ⟨negative, position, rfl, ?_⟩
      rw [← hUnits]
      exact Int.compare_eq_eq.1 (Option.some.inj h)

/-- Small whole numbers are equal as numbers only if they are the same. -/
theorem equals_ofNat_iff (hLeft : n < 2 ^ 53) (hRight : k < 2 ^ 53) :
    (ofNat n).equals (ofNat k) = true ↔ n = k := by
  obtain ⟨whole, hWhole, hUnits⟩ := exists_ofNat_eq_finite hLeft
  constructor
  · intro h
    obtain ⟨negative, position, hEq, hSigned⟩ := exists_of_equals_ofNat hRight h
    cases hWhole.symm.trans hEq
    have hProduct : n * unitsPerOne = k * unitsPerOne := by
      rw [← hUnits]
      exact Int.ofNat.inj hSigned
    exact Nat.eq_of_mul_eq_mul_right unitsPerOne_pos hProduct
  · rintro rfl
    rw [hWhole, equals, beq_iff_eq]
    exact congrArg some (Int.compare_eq_eq.2 rfl)

/-- A number above a small whole number, below one, or not whole at all, equals none of the whole
numbers from one up to it. -/
theorem equals_ofNat_eq_false (hSmall : n < 2 ^ 53) (hLow : 1 ≤ k) (hHigh : k ≤ n)
    (h : (ofNat n).less x = true ∨ x.less (ofNat 1) = true ∨ x.isWhole = false) :
    x.equals (ofNat k) = false := by
  rw [← Bool.not_eq_true]
  intro hEquals
  obtain ⟨negative, position, rfl, hSigned⟩ :=
    exists_of_equals_ofNat (Nat.lt_of_le_of_lt hHigh hSmall) hEquals
  rcases h with hAbove | hBelow | hBroken
  · obtain ⟨whole, hWhole, hUnits⟩ := exists_ofNat_eq_finite hSmall
    rw [hWhole, less, beq_iff_eq] at hAbove
    have hLess : (units whole : Int) < signedUnits negative position :=
      Int.compare_eq_lt.1 (Option.some.inj hAbove)
    rw [hSigned, hUnits, Int.ofNat_lt] at hLess
    exact Nat.not_lt.2 (Nat.mul_le_mul_right unitsPerOne hHigh) hLess
  · obtain ⟨whole, hWhole, hUnits⟩ := exists_ofNat_eq_finite (show 1 < 2 ^ 53 by decide)
    rw [hWhole, less, beq_iff_eq] at hBelow
    have hLess : signedUnits negative position < (units whole : Int) :=
      Int.compare_eq_lt.1 (Option.some.inj hBelow)
    rw [hSigned, hUnits, Int.ofNat_lt] at hLess
    exact Nat.not_lt.2 (Nat.mul_le_mul_right unitsPerOne hLow) hLess
  · have hUnits : units position = k * unitsPerOne := by
      cases negative <;> simp only [signedUnits, if_true, Bool.false_eq_true, if_false] at hSigned <;>
        omega
    rw [isWhole, hUnits, Nat.mul_mod_left] at hBroken
    cases hBroken

end Whole

end Binary64

end CborPath
