import CborPath.Proofs.Number.ExactValue
import CborPath.Proofs.Number.HalfUp

/-!
# Rounding to integers

In exact values, rounding a finite number takes the floor of the exact sum with one half, unless the rounded
sum overshoots.
-/

namespace CborPath

namespace Binary64

section Values

variable {negative : Bool} {total k : Int}

/-- What is not whole is less than the great integers. -/
theorem units_lt_of_mod_ne_zero {position : Fin finiteCount} (h : units position % unitsPerOne ≠ 0) :
    units position < 2 ^ 52 * unitsPerOne := by
  obtain ⟨position, hFinite⟩ := position
  obtain ⟨shift, significand, rfl, hLow, hHigh⟩ := exists_shift position
  rw [units, unitsAt_shifted hLow (Nat.le_of_lt hHigh)] at h ⊢
  refine mul_two_pow_lt hHigh (Nat.le_of_not_lt fun hGreat => h ?_)
  rw [← two_pow_mul_unitsPerOne hGreat, ← Nat.mul_assoc]
  exact Nat.mul_mod_left _ _

/-- The floor of a finite number is that of its value. -/
theorem value?_floor (negative : Bool) (position : Fin finiteCount) :
    (floor (finite negative position)).value? =
      some ((signedUnits negative position / unitsPerOne : Int) : ℚ) := by
  have hOne := unitsPerOne_pos
  have hDivision := Nat.div_add_mod (units position) unitsPerOne
  have hRest := Nat.mod_lt (units position) hOne
  rw [floor]
  by_cases hWhole : units position % unitsPerOne = 0
  · have hDvd : (unitsPerOne : Int) ∣ signedUnits negative position := by
      have hUnits := Int.natCast_dvd_natCast.2 (Nat.dvd_of_mod_eq_zero hWhole)
      rw [signedUnits]
      split
      · exact Int.dvd_neg.2 hUnits
      · exact hUnits
    rw [if_pos hWhole, value?, Int.cast_div hDvd (by exact_mod_cast hOne.ne'), Int.cast_natCast]
  · have hSmall : units position / unitsPerOne < 2 ^ 52 :=
      (Nat.div_lt_iff_lt_mul hOne).2 (units_lt_of_mod_ne_zero hWhole)
    have hCast : (unitsPerOne : ℚ) ≠ 0 := unitsPerOne_cast_pos.ne'
    rw [if_neg hWhole]
    cases negative with
    | false =>
        obtain ⟨found, hFound, hUnits⟩ := exists_ofFraction_eq_finite false
          (show units position / unitsPerOne < 2 ^ 53 by omega)
        rw [if_neg Bool.false_ne_true, hFound, value?, signedUnits, signedUnits,
          if_neg Bool.false_ne_true, if_neg Bool.false_ne_true, hUnits, ← Int.natCast_ediv]
        push_cast
        rw [mul_div_cancel_right₀ _ hCast]
    | true =>
        obtain ⟨found, hFound, hUnits⟩ := exists_ofFraction_eq_finite true
          (show units position / unitsPerOne + 1 < 2 ^ 53 by omega)
        have hBelow : -(units position : Int) / unitsPerOne =
            -((units position / unitsPerOne + 1 : Nat) : Int) := by
          have hSum : ((unitsPerOne : Int) - (units position % unitsPerOne : Nat)) +
              unitsPerOne * -((units position / unitsPerOne + 1 : Nat) : Int) = -(units position : Int) := by
            rw [Int.mul_neg, ← Int.natCast_mul, Nat.mul_succ]
            omega
          exact ((Int.ediv_emod_unique (by omega)).2 ⟨hSum, by omega, by omega⟩).1
        rw [if_pos rfl, hFound, value?, signedUnits, signedUnits, if_pos rfl, if_pos rfl, hUnits, hBelow]
        push_cast
        rw [← neg_mul, mul_div_cancel_right₀ _ hCast]

/-- One half is a number. -/
theorem exists_half_eq : ∃ position, half = finite false position ∧ units position = unitsPerHalf :=
  ⟨⟨1022 * 2 ^ 52, by decide⟩, by decide +kernel, by decide +kernel⟩

/-- A sum is rounded as its units are. -/
theorem exists_ofSignedUnits_eq (zeroNegative : Bool) (h : FloorsTo total k) :
    ∃ negative position, ofSignedUnits zeroNegative total = finite negative position ∧
      signedUnits negative position / unitsPerOne = k := by
  obtain ⟨position, hFinite, hRounds, hFloor⟩ := h
  have hNearest := (nearest_eq_iff Nat.one_pos).2 hRounds
  rw [ofSignedUnits]
  split
  · rename_i hZero
    subst hZero
    have hNone : position = 0 := hNearest.symm
    subst hNone
    have hZero : nearest 0 1 = 0 := hNearest
    refine ⟨zeroNegative, ⟨0, hFinite⟩, ?_, ?_⟩
    · rw [zero, ofUnits]
      simp only [hZero, dif_pos hFinite]
    · rw [← hFloor]
      cases zeroNegative <;> rfl
  · refine ⟨decide (total < 0), ⟨position, hFinite⟩, ?_, ?_⟩
    · rw [ofUnits]
      simp only [hNearest, dif_pos hFinite]
    · rw [← hFloor, signedUnits]
      simp only [decide_eq_true_eq]
      rfl

end Values

/-- Whether the sum of a fraction with one half is too great for its floor to be the nearest integer. -/
def Overshoots (q : ℚ) : Prop :=
  q = 1 / 2 - 1 / 2 ^ 54 ∨ ∃ m : Int, q = m ∧ m % 2 = 1 ∧ 2 ^ 52 < m.natAbs ∧ m.natAbs < 2 ^ 53

theorem overshoots_div_iff (total : Int) :
    Overshoots (total / unitsPerOne) ↔ OvershootsAt total := by
  have hOne : (unitsPerOne : ℚ) = 2 ^ 54 * unitsBelowHalf := by
    rw [unitsPerOne_eq, unitsPerHalf_eq]
    push_cast
    ring
  have hHalf : (unitsPerHalf : ℚ) = 2 ^ 53 * unitsBelowHalf := by
    rw [unitsPerHalf_eq]
    push_cast
    ring
  have hPos : (0 : ℚ) < unitsBelowHalf := Nat.cast_pos.2 unitsBelowHalf_pos
  refine or_congr ?_ (exists_congr fun m => and_congr_left' ?_)
  · rw [div_eq_iff unitsPerOne_cast_pos.ne', ← Int.cast_inj (α := ℚ)]
    push_cast
    rw [hOne, hHalf]
    constructor <;> intro h <;> linarith
  · rw [div_eq_iff unitsPerOne_cast_pos.ne', ← Int.cast_inj (α := ℚ)]
    push_cast
    rfl

/-- The floor of a fraction of units with one half added. -/
theorem floor_div_add_half (total : Int) :
    ⌊(total : ℚ) / unitsPerOne + 1 / 2⌋ = (total + unitsPerHalf) / unitsPerOne := by
  have hPos : (unitsPerHalf : ℚ) ≠ 0 := (Nat.cast_pos.2 unitsPerHalf_pos).ne'
  have hHalf : (1 / 2 : ℚ) = unitsPerHalf / unitsPerOne := by
    rw [unitsPerOne_eq, Nat.cast_mul, Nat.cast_ofNat, div_mul_cancel_right₀ hPos, one_div]
  rw [hHalf, ← add_div, ← Rat.floor_intCast_div_natCast]
  push_cast
  rfl

/-- A finite number is rounded to the floor of the rounded sum with one half. -/
theorem value?_round_of_floorsTo {negative : Bool} {position : Fin finiteCount} {k : Int}
    (h : FloorsTo (signedUnits negative position + unitsPerHalf) k) :
    (finite negative position).round.value? = some (k : ℚ) := by
  obtain ⟨middle, hMiddle, hUnits⟩ := exists_half_eq
  obtain ⟨sign, found, hSum, hFloor⟩ := exists_ofSignedUnits_eq (negative && false) h
  have hRound : (finite negative position).round =
      floor (ofSignedUnits (negative && false) (signedUnits negative position + unitsPerHalf)) := by
    rw [← hUnits, round, hMiddle]
    rfl
  rw [hRound, hSum, value?_floor, hFloor]

/-- A finite number is rounded to the floor of the exact sum with one half, or to the next integer where
the rounded sum overshoots. -/
theorem exists_value?_round {x : Binary64} {q : ℚ} (h : x.value? = some q) :
    ∃ k : Int, x.round.value? = some (k : ℚ) ∧ (¬Overshoots q → k = ⌊q + 1 / 2⌋) ∧
      (Overshoots q → k = ⌊q + 1 / 2⌋ + 1) := by
  cases x with
  | nan => cases h
  | infinite negative => cases h
  | finite negative position =>
      obtain rfl : (signedUnits negative position : ℚ) / unitsPerOne = q := Option.some.inj h
      have hRounds := roundsHalfUp_signedUnits negative position
      rw [overshoots_div_iff, floor_div_add_half]
      by_cases hOver : OvershootsAt (signedUnits negative position)
      · exact ⟨_, value?_round_of_floorsTo (hRounds.next hOver), fun hNot => absurd hOver hNot,
          fun _ => rfl⟩
      · exact ⟨_, value?_round_of_floorsTo (hRounds.floor hOver), fun _ => rfl,
          fun h => absurd h hOver⟩

end Binary64

end CborPath
