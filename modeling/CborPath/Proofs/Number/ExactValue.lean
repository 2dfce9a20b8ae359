import CborPath.Proofs.Number.Decimal
import CborPath.Proofs.Number.Rounding
import CborPath.Proofs.Number.Whole
import Mathlib.Data.Rat.Floor
import Mathlib.Tactic.FieldSimp
import Mathlib.Tactic.Linarith

/-!
# Exact values

Every finite number has an exact rational value.  A fraction is rounded correctly if it becomes the
number with the nearest value, ties going to the even one; fractions from the midpoint on that lies
between the greatest magnitude and the next power of two become infinite.  This is the rounding of
IEEE 754 to nearest, and what numbers are made with in this library: `ofFraction` rounds correctly.
-/

namespace CborPath

namespace Binary64

/-- The magnitude at a position as a rational number. -/
def magnitudeAt (position : Nat) : ℚ :=
  unitsAt position / unitsPerOne

/-- The exact value of a finite number. -/
def value? : Binary64 → Option ℚ
  | finite negative position => some (signedUnits negative position / unitsPerOne)
  | _ => none

/-- The least fraction that is too great for the finite magnitudes. -/
def overflowBound : ℚ := 2 ^ 1024 - 2 ^ 970

/-- Whether no finite magnitude is nearer to a fraction, nor as near if the position is odd. -/
structure IsClosest (q : ℚ) (position : Fin finiteCount) : Prop where
  nearest (other : Fin finiteCount) : |q - magnitudeAt position| ≤ |q - magnitudeAt other|
  even_of_tie (other : Fin finiteCount) (h : other ≠ position)
    (hTie : |q - magnitudeAt position| = |q - magnitudeAt other|) : position.val % 2 = 0

/-- Whether a number is a nonnegative fraction rounded to nearest, ties to even, with a sign. -/
inductive IsNearest (negative : Bool) (q : ℚ) : Binary64 → Prop
  | finite (position : Fin finiteCount) (inRange : q < overflowBound)
      (closest : IsClosest q position) : IsNearest negative q (finite negative position)
  | infinite (tooGreat : overflowBound ≤ q) : IsNearest negative q (infinite negative)

section Magnitudes

variable {low high position : Nat}

theorem unitsPerOne_cast_pos : (0 : ℚ) < unitsPerOne :=
  Nat.cast_pos.2 unitsPerOne_pos

theorem magnitudeAt_lt (h : low < high) :
    magnitudeAt low < magnitudeAt high :=
  div_lt_div_of_pos_right (Nat.cast_lt.2 (unitsAt_lt_unitsAt h)) unitsPerOne_cast_pos

theorem magnitudeAt_le (h : low ≤ high) :
    magnitudeAt low ≤ magnitudeAt high :=
  div_le_div_of_nonneg_right (Nat.cast_le.2 (unitsAt_le_unitsAt h)) unitsPerOne_cast_pos.le

/-- The bound is the midpoint between the last magnitude and what would come after it. -/
theorem magnitudeAt_add_magnitudeAt_finiteCount :
    magnitudeAt (finiteCount - 1) + magnitudeAt finiteCount = 2 * overflowBound := by
  have hUnits : unitsAt (finiteCount - 1) + unitsAt finiteCount + 2 * 2 ^ 970 * unitsPerOne =
      2 * 2 ^ 1024 * unitsPerOne := by
    decide +kernel
  have hCast := congrArg (Nat.cast : Nat → ℚ) hUnits
  simp only [Nat.cast_add, Nat.cast_mul, Nat.cast_pow, Nat.cast_ofNat] at hCast
  rw [magnitudeAt, magnitudeAt, overflowBound, ← add_div, div_eq_iff unitsPerOne_cast_pos.ne']
  generalize (2 : ℚ) ^ 970 = gap at *
  generalize (2 : ℚ) ^ 1024 = power at *
  linarith

/-- The midpoints around the magnitude that a fraction rounds to, as rational numbers. -/
theorem Rounds.midpoints {numerator denominator : Nat} (hDenominator : 0 < denominator)
    (h : Rounds position (numerator * unitsPerOne) denominator) :
    magnitudeAt (position - 1) + magnitudeAt position ≤ 2 * (numerator / denominator) ∧
      2 * (numerator / denominator : ℚ) ≤ magnitudeAt position + magnitudeAt (position + 1) ∧
      (position % 2 = 1 →
        magnitudeAt (position - 1) + magnitudeAt position < 2 * (numerator / denominator) ∧
        2 * (numerator / denominator : ℚ) < magnitudeAt position + magnitudeAt (position + 1)) := by
  have hPositive : (0 : ℚ) < denominator := Nat.cast_pos.2 hDenominator
  have hOne := unitsPerOne_cast_pos
  simp only [magnitudeAt, ← add_div, ← mul_div_assoc, div_le_div_iff₀ hOne hPositive,
    div_le_div_iff₀ hPositive hOne, div_lt_div_iff₀ hOne hPositive, div_lt_div_iff₀ hPositive hOne,
    mul_assoc]
  exact ⟨mod_cast h.low, mod_cast h.high,
    fun hOdd => ⟨mod_cast h.low_of_odd hOdd, mod_cast h.high_of_odd hOdd⟩⟩

end Magnitudes

/-- Fractions are rounded correctly. -/
theorem isNearest_ofFraction (negative : Bool) (numerator : Nat) {denominator : Nat}
    (hDenominator : 0 < denominator) :
    IsNearest negative (numerator / denominator) (ofFraction negative numerator denominator) := by
  obtain ⟨hLow, hHigh, hOdd⟩ :=
    (rounds_nearest (numerator * unitsPerOne) hDenominator).midpoints hDenominator
  rw [ofFraction, ofUnits]
  generalize nearest (numerator * unitsPerOne) denominator = position at *
  generalize (numerator / denominator : ℚ) = q at *
  have hBound := magnitudeAt_add_magnitudeAt_finiteCount
  have hLast : (finiteCount - 1) % 2 = 1 := by decide
  split
  · rename_i hFinite
    refine .finite ⟨position, hFinite⟩ ?_ ⟨fun other => ?_, fun other hOther hEqual => ?_⟩
    · -- The last position is odd, so that its upper midpoint is not reached.
      by_cases hEnd : position = finiteCount - 1
      · have hNext : position + 1 = finiteCount := by omega
        rw [hEnd] at hOdd
        have hBelow := (hOdd hLast).2
        rw [← hEnd, hNext, hEnd, hBound] at hBelow
        linarith
      · have hHere := magnitudeAt_lt (show position < finiteCount - 1 by omega)
        have hThere := magnitudeAt_le (show position + 1 ≤ finiteCount by omega)
        linarith
    · rcases Nat.lt_trichotomy other.val position with hBefore | hSame | hAfter
      · have hHere := magnitudeAt_lt hBefore
        have hThere := magnitudeAt_le (show other.val ≤ position - 1 by omega)
        exact (abs_le.2 ⟨by linarith, by linarith⟩).trans (le_abs_self _)
      · rw [hSame]
      · have hHere := magnitudeAt_lt hAfter
        have hThere := magnitudeAt_le (show position + 1 ≤ other.val by omega)
        exact (abs_le.2 ⟨by linarith, by linarith⟩).trans (neg_le_abs _)
    · -- At the same distance lie only the two neighbours of a midpoint, and an odd one is not chosen.
      rcases Nat.mod_two_eq_zero_or_one position with hEven | hOddPosition
      · exact hEven
      · obtain ⟨hAbove, hBelow⟩ := hOdd hOddPosition
        rcases Nat.lt_or_gt_of_ne (fun h => hOther (Fin.ext h)) with hBefore | hAfter
        · have hHere := magnitudeAt_lt hBefore
          have hThere := magnitudeAt_le (show other.val ≤ position - 1 from Nat.le_sub_one_of_lt hBefore)
          have hLess : |q - magnitudeAt position| < q - magnitudeAt other :=
            abs_lt.2 ⟨by linarith, by linarith⟩
          exact absurd (hEqual ▸ hLess) (not_lt.2 (le_abs_self _))
        · have hHere := magnitudeAt_lt hAfter
          have hThere := magnitudeAt_le (show position + 1 ≤ other.val from hAfter)
          have hLess : |q - magnitudeAt position| < -(q - magnitudeAt other) :=
            abs_lt.2 ⟨by linarith, by linarith⟩
          exact absurd (hEqual ▸ hLess) (not_lt.2 (neg_le_abs _))
  · refine .infinite ?_
    have hHere := magnitudeAt_le (show finiteCount ≤ position by omega)
    have hThere := magnitudeAt_le (show finiteCount - 1 ≤ position - 1 by omega)
    linarith

section Determinacy

variable {negative : Bool} {q : ℚ}

/-- Of two magnitudes that are equally near only one can be closest: they would both be at even
positions, and between these is an odd one, which is nearer. -/
theorem IsClosest.not_lt {first second : Fin finiteCount} (h : IsClosest q first)
    (h' : IsClosest q second) :
    ¬first.val < second.val := by
  intro hLess
  have hTie := le_antisymm (h.nearest second) (h'.nearest first)
  have hFirst := h.even_of_tie second (fun hEq => hLess.ne' (congrArg Fin.val hEq)) hTie
  have hSecond := h'.even_of_tie first (fun hEq => hLess.ne (congrArg Fin.val hEq)) hTie.symm
  let between : Fin finiteCount := ⟨first.val + 1, Nat.lt_of_le_of_lt hLess second.isLt⟩
  have hAbove : magnitudeAt first < magnitudeAt between := magnitudeAt_lt (Nat.lt_succ_self first.val)
  have hBelow : magnitudeAt between < magnitudeAt second :=
    magnitudeAt_lt (show first.val + 1 < second.val by omega)
  have hLow := h.nearest between
  have hHigh := h'.nearest between
  have hFar := neg_le_abs (q - magnitudeAt second)
  have hNear := le_abs_self (q - magnitudeAt first)
  rcases abs_cases (q - magnitudeAt between) with ⟨hAbs, -⟩ | ⟨hAbs, -⟩ <;> linarith

theorem IsClosest.unique {first second : Fin finiteCount} (h : IsClosest q first)
    (h' : IsClosest q second) :
    first = second :=
  Fin.ext (Nat.le_antisymm (Nat.not_lt.1 (h'.not_lt h)) (Nat.not_lt.1 (h.not_lt h')))

/-- At most one number is a fraction rounded to nearest. -/
theorem IsNearest.unique {x y : Binary64} (h : IsNearest negative q x) (h' : IsNearest negative q y) :
    x = y := by
  cases h with
  | finite position hRange hClosest =>
      cases h' with
      | finite other hRange' hClosest' => rw [hClosest.unique hClosest']
      | infinite hGreat => exact absurd hRange (not_lt.2 hGreat)
  | infinite hGreat =>
      cases h' with
      | finite other hRange' => exact absurd hRange' (not_lt.2 hGreat)
      | infinite => rfl

end Determinacy

/-- The exact value of a decimal given by its digits before and after the point. -/
def decimalValue (whole fraction : List Char) : ℚ :=
  Nat.ofDigits 10 ((whole ++ fraction).reverse.map fun c => c.toNat - '0'.toNat) / 10 ^ fraction.length

theorem decimalValue_eq (whole fraction : List Char) :
    decimalValue whole fraction =
      ((naturalOfDigits (whole ++ fraction) : ℕ) : ℚ) / ((10 ^ fraction.length : ℕ) : ℚ) := by
  rw [decimalValue, naturalOfDigits_eq_ofDigits, Nat.coe_ofDigits, Nat.cast_pow, Nat.cast_ofNat]

/-- Decimals are rounded correctly, and nothing else is their rounded value. -/
theorem isNearest_decimalValue_iff {negative : Bool} {whole fraction : List Char} {x : Binary64} :
    IsNearest negative (decimalValue whole fraction) x ↔ x = ofDecimal negative whole fraction := by
  have hNearest := isNearest_ofFraction negative (naturalOfDigits (whole ++ fraction))
    (show 0 < 10 ^ fraction.length from Nat.pow_pos (by decide))
  rw [← ofDecimal_eq, ← decimalValue_eq] at hNearest
  refine ⟨fun h => h.unique hNearest, ?_⟩
  rintro rfl
  exact hNearest

end Binary64

end CborPath
