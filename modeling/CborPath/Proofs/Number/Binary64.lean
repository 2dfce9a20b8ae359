import CborPath.Number.Binary64
import Mathlib.Algebra.Group.Nat.Defs

/-!
# Positions and units

Magnitudes increase with their positions, and each is the nearest one to its own units.  The bits of
a number read back as the number.
-/

namespace CborPath

namespace Binary64

/-- A whole quotient needs no rounding. -/
theorem roundedQuotient_mul (quotient : Nat) {denominator : Nat} (h : 0 < denominator) :
    roundedQuotient (quotient * denominator) denominator = quotient := by
  simp [roundedQuotient, Nat.mul_div_cancel _ h, h]

/-- The units of the magnitudes below `2 ^ 53` units are their positions. -/
theorem unitsAt_of_lt {position : Nat} (h : position < 2 ^ 53) :
    unitsAt position = position := by
  simp only [unitsAt, Nat.pow_eq]
  split
  · rfl
  · have hExponent : position / 2 ^ 52 = 1 := by omega
    rw [hExponent]
    omega

/-- Greater magnitudes are whole multiples of a power of two, with a factor of 53 bits. -/
theorem unitsAt_of_le {position : Nat} (h : 2 ^ 52 ≤ position) :
    unitsAt position = (2 ^ 52 + position % 2 ^ 52) * 2 ^ (position / 2 ^ 52 - 1) := by
  simp only [unitsAt, Nat.pow_eq]
  rw [if_neg (by omega)]

/-- Magnitudes increase with their positions. -/
theorem unitsAt_lt_unitsAt_succ (position : Nat) :
    unitsAt position < unitsAt (position + 1) := by
  by_cases hSmall : position < 2 ^ 52
  · rw [unitsAt_of_lt (by omega), unitsAt_of_lt (by omega)]
    omega
  · have hPower : 0 < 2 ^ (position / 2 ^ 52 - 1) := Nat.two_pow_pos _
    rw [unitsAt_of_le (by omega), unitsAt_of_le (by omega)]
    by_cases hLast : position % 2 ^ 52 = 2 ^ 52 - 1
    · have hNext : (position + 1) / 2 ^ 52 - 1 = position / 2 ^ 52 - 1 + 1 := by omega
      have hStart : (position + 1) % 2 ^ 52 = 0 := by omega
      have hDouble :
          2 ^ (position / 2 ^ 52 - 1 + 1) = 2 * 2 ^ (position / 2 ^ 52 - 1) := Nat.pow_succ'
      rw [hNext, hStart, hLast, hDouble, ← Nat.mul_assoc]
      exact Nat.mul_lt_mul_of_pos_right (by decide) hPower
    · have hSame : (position + 1) / 2 ^ 52 = position / 2 ^ 52 := by omega
      rw [hSame]
      exact Nat.mul_lt_mul_of_pos_right (by omega) hPower

/-- Different positions have different magnitudes, the greater the farther. -/
theorem unitsAt_lt_unitsAt {low high : Nat} (h : low < high) :
    unitsAt low < unitsAt high := by
  induction high with
  | zero => omega
  | succ high ih =>
      by_cases hEq : low = high
      · exact hEq ▸ unitsAt_lt_unitsAt_succ low
      · exact Nat.lt_trans (ih (by omega)) (unitsAt_lt_unitsAt_succ high)

theorem unitsAt_le_unitsAt {low high : Nat} (h : low ≤ high) :
    unitsAt low ≤ unitsAt high := by
  rcases Nat.eq_or_lt_of_le h with rfl | hLess
  · exact Nat.le_refl _
  · exact Nat.le_of_lt (unitsAt_lt_unitsAt hLess)

/-- Every magnitude is the nearest one to itself. -/
theorem nearest_unitsAt (position : Nat) :
    nearest (unitsAt position) 1 = position := by
  by_cases hSmall : position < 2 ^ 53
  · have hLog : position.log2 - 52 = 0 := by
      by_cases hZero : position = 0
      · simp [hZero]
      · have := (Nat.log2_lt hZero).2 hSmall
        omega
    have hQuotient := roundedQuotient_mul position Nat.one_pos
    rw [Nat.mul_one] at hQuotient
    simp only [nearest, Nat.pow_eq, unitsAt_of_lt hSmall, Nat.div_one, hLog, Nat.zero_mul, Nat.pow_zero,
      Nat.mul_one, hQuotient, Nat.zero_add]
  · have hLarge : 2 ^ 52 ≤ position := by omega
    have hExponent : 1 ≤ position / 2 ^ 52 := by omega
    have hPower : 0 < 2 ^ (position / 2 ^ 52 - 1) := Nat.two_pow_pos _
    have hLog :
        ((2 ^ 52 + position % 2 ^ 52) * 2 ^ (position / 2 ^ 52 - 1)).log2 =
          52 + (position / 2 ^ 52 - 1) := by
      rw [Nat.log2_eq_iff (Nat.mul_ne_zero (by omega) (by omega)), Nat.pow_add,
        Nat.add_right_comm, Nat.pow_add]
      exact ⟨Nat.mul_le_mul_right _ (by omega), Nat.mul_lt_mul_of_pos_right (by omega) hPower⟩
    simp only [nearest, Nat.pow_eq, unitsAt_of_le hLarge, Nat.div_one, hLog, Nat.add_sub_cancel_left,
      Nat.one_mul, roundedQuotient_mul _ hPower]
    omega

/-- The bits of a number read back as the number. -/
theorem ofBits_of_toBits?_eq_some {x : Binary64} {bits : Nat} (h : x.toBits? = some bits) :
    ofBits bits = x := by
  cases x with
  | nan => cases h
  | infinite negative =>
      cases h
      cases negative <;> rfl
  | finite negative position =>
      cases h
      have hLess : position.val < finiteCount := position.isLt
      have hCount : finiteCount < 2 ^ 63 := by decide
      have hMagnitude : (negative.toNat * 2 ^ 63 + position.val) % 2 ^ 63 = position.val := by
        omega
      have hSign :
          decide ((negative.toNat * 2 ^ 63 + position.val) / 2 ^ 63 % 2 = 1) = negative := by
        cases negative <;> simp <;> omega
      simp only [ofBits, Nat.pow_eq, hMagnitude, hSign, dif_pos hLess]

end Binary64

end CborPath
