import CborPath.Proofs.Number.Decimal
import CborPath.Proofs.Number.Rounding
import CborPath.Query.Printer

/-!
# Literals read back

The decimal chosen for a magnitude rounds to that magnitude, and its digits spell it.  So what is
written for a number reads back as the number, and the numbers that some digits denote are those that
have a literal.
-/

namespace CborPath

namespace Binary64

section Grid

variable {position level coefficient : Nat}

theorem roundsTo_iff {scaled : Nat} :
    roundsTo position scaled = true ↔ Rounds position scaled decimalScale := by
  rw [roundsTo]
  split
  · rename_i hEven
    rw [Bool.and_eq_true, decide_eq_true_eq, decide_eq_true_eq]
    exact ⟨fun h => ⟨h.1, h.2, fun hOdd => by omega, fun hOdd => by omega⟩,
      fun h => ⟨h.low, h.high⟩⟩
  · rename_i hOdd
    rw [Bool.and_eq_true, decide_eq_true_eq, decide_eq_true_eq]
    exact ⟨fun h => ⟨Nat.le_of_lt h.1, Nat.le_of_lt h.2, fun _ => h.1, fun _ => h.2⟩,
      fun h => ⟨h.low_of_odd (by omega), h.high_of_odd (by omega)⟩⟩

/-- A grid point that is chosen for a magnitude rounds to it. -/
theorem rounds_of_gridPoint? (h : gridPoint? position level = some coefficient) :
    Rounds position (coefficient * gridStep level) decimalScale := by
  rw [← roundsTo_iff]
  simp only [gridPoint?] at h
  split at h
  · rename_i hLower
    cases h
    exact (Bool.and_eq_true _ _ ▸ hLower).1
  · split at h
    · cases h
      assumption
    · cases h

/-- If the steps of a grid are small enough, the next point below a magnitude rounds to it. -/
theorem rounds_of_small_step {step scale : Nat} (hPosition : 0 < position) (hStep : 0 < step)
    (hSmall : 2 * step ≤ scale) :
    Rounds position (unitsAt position * scale / step * step) scale := by
  have hBefore := unitsAt_lt_unitsAt_succ (position - 1)
  rw [Nat.sub_add_cancel hPosition] at hBefore
  have hAfter := unitsAt_lt_unitsAt_succ position
  have hDivision := Nat.div_add_mod' (unitsAt position * scale) step
  have hRest := Nat.mod_lt (unitsAt position * scale) hStep
  have hGapBefore : unitsAt (position - 1) * scale + scale ≤ unitsAt position * scale := by
    rw [← Nat.succ_mul]
    exact Nat.mul_le_mul_right scale hBefore
  have hGapAfter : unitsAt position * scale + scale ≤ unitsAt (position + 1) * scale := by
    rw [← Nat.succ_mul]
    exact Nat.mul_le_mul_right scale hAfter
  constructor <;> rw [Nat.add_mul] <;> omega

/-- The lowest level has a point for every magnitude but zero. -/
theorem exists_gridPoint?_zero (hPosition : 0 < position) :
    ∃ coefficient, gridPoint? position 0 = some coefficient := by
  have hLower : roundsTo position (unitsAt position * decimalScale / gridStep 0 * gridStep 0) = true :=
    roundsTo_iff.2 (rounds_of_small_step hPosition (by decide +kernel) (by decide +kernel))
  simp only [gridPoint?, hLower, Bool.true_and]
  split
  · exact ⟨_, rfl⟩
  · rename_i hUpper
    rw [Bool.or_eq_true, not_or, Bool.not_eq_true, Bool.not_eq_true, Bool.not_eq_false'] at hUpper
    rw [if_pos hUpper.2]
    exact ⟨_, rfl⟩

/-- The decimal that a search chooses lies on the grid of some level, and rounds to the magnitude. -/
theorem exists_rounds_shortestFrom (hPosition : 0 < position) (level : Nat) :
    ∃ found : Nat, (shortestFrom position level).exponent = (found : Int) - 324 ∧
      Rounds position ((shortestFrom position level).coefficient * gridStep found) decimalScale := by
  induction level with
  | zero =>
      obtain ⟨coefficient, hPoint⟩ := exists_gridPoint?_zero hPosition
      refine ⟨0, rfl, ?_⟩
      rw [shortestFrom, hPoint]
      exact rounds_of_gridPoint? hPoint
  | succ level ih =>
      rw [shortestFrom]
      split
      · rename_i coefficient hPoint
        exact ⟨level + 1, rfl, rounds_of_gridPoint? hPoint⟩
      · exact ih

end Grid

end Binary64

/-- Digits with a point before the given ones, if there are any. -/
def pointed (whole fraction : List Char) : List Char :=
  if fraction = [] then whole else whole ++ '.' :: fraction

theorem naturalOfDigits_toDigits (n : Nat) :
    naturalOfDigits (Nat.toDigits 10 n) = n :=
  Nat.ofDigitChars_toDigits (by decide) (by decide)

theorem naturalOfDigits_replicate (count : Nat) :
    naturalOfDigits (List.replicate count '0') = 0 := by
  induction count with
  | zero => rfl
  | succ count ih =>
      rw [List.replicate_succ', naturalOfDigits_append, ih]
      rfl

theorem all_isDigit_toDigits (n : Nat) :
    (Nat.toDigits 10 n).all Char.isDigit = true :=
  List.all_eq_true.2 fun _ hMem => Nat.isDigit_of_mem_toDigits (by decide) (by decide) hMem

/-- The text of a decimal: its digits, and as many of them after the point as its exponent tells. -/
theorem Decimal.exists_text_eq (d : Decimal) :
    ∃ whole fraction, d.text = pointed whole fraction ∧ whole ≠ [] ∧
      (whole ++ fraction).all Char.isDigit = true ∧
      naturalOfDigits (whole ++ fraction) = d.coefficient * 10 ^ d.exponent.toNat ∧
      fraction.length = (-d.exponent).toNat := by
  have hDigits := all_isDigit_toDigits d.coefficient
  have hValue := naturalOfDigits_toDigits d.coefficient
  have hSome : Nat.toDigits 10 d.coefficient ≠ [] := Nat.toDigits_ne_nil
  simp only [Decimal.text]
  generalize Nat.toDigits 10 d.coefficient = digits at hDigits hValue hSome ⊢
  split
  · refine ⟨digits ++ List.replicate d.exponent.toNat '0', [], rfl, ?_, ?_, ?_, ?_⟩
    · exact List.append_ne_nil_of_left_ne_nil hSome _
    · rw [List.append_nil, List.all_append, hDigits, List.all_replicate]
      simp
    · rw [List.append_nil, naturalOfDigits_append, hValue, naturalOfDigits_replicate,
        List.length_replicate, Nat.add_zero]
    · rw [List.length_nil]
      omega
  · have hExponent : d.exponent.toNat = 0 := by omega
    rw [hExponent, Nat.pow_zero, Nat.mul_one]
    split
    · rename_i hPlaces
      have hFraction : digits.drop (digits.length - (-d.exponent).toNat) ≠ [] := by
        rw [ne_eq, List.drop_eq_nil_iff]
        omega
      refine ⟨_, _, (if_neg hFraction).symm, ?_, ?_, ?_, ?_⟩
      · rw [ne_eq, List.take_eq_nil_iff]
        simp only [hSome, or_false]
        omega
      · rw [List.take_append_drop, hDigits]
      · rw [List.take_append_drop, hValue]
      · rw [List.length_drop]
        omega
    · have hFraction : List.replicate ((-d.exponent).toNat - digits.length) '0' ++ digits ≠ [] :=
        List.append_ne_nil_of_right_ne_nil _ hSome
      refine ⟨['0'], _, (if_neg hFraction).symm, List.cons_ne_nil _ _, ?_, ?_, ?_⟩
      · rw [List.all_append, List.all_append, hDigits, List.all_replicate]
        simp
      · rw [naturalOfDigits_append, naturalOfDigits_append, naturalOfDigits_replicate, hValue,
          Nat.zero_mul, Nat.zero_add]
        exact (congrArg (· + _) (Nat.zero_mul _)).trans (Nat.zero_add _)
      · rw [List.length_append, List.length_replicate]
        omega

namespace Binary64

theorem pow_mul_pow_eq_decimalScale {places : Nat} (h : places ≤ 324) :
    10 ^ places * 10 ^ (324 - places) = decimalScale := by
  delta decimalScale
  generalize 324 = most at *
  rw [Nat.pow_eq, ← Nat.pow_add, Nat.add_sub_cancel' h]

/-- The digits of the shortest decimal denote the magnitude. -/
theorem ofDecimal_eq_finite {position : Fin finiteCount} {d : Decimal} {level : Nat}
    {whole fraction : List Char} (hExponent : d.exponent = (level : Int) - 324)
    (hRounds : Rounds position (d.coefficient * gridStep level) decimalScale)
    (hValue : naturalOfDigits (whole ++ fraction) = d.coefficient * 10 ^ d.exponent.toNat)
    (hLength : fraction.length = (-d.exponent).toNat) :
    ofDecimal false whole fraction = finite false position := by
  have hNearest : nearest (naturalOfDigits (whole ++ fraction) * unitsPerOne)
      (10 ^ fraction.length) = position := by
    rw [nearest_eq_iff (Nat.pow_pos (by decide)),
      ← rounds_mul_iff (show 0 < 10 ^ (324 - fraction.length) from Nat.pow_pos (by decide))]
    have hScale := pow_mul_pow_eq_decimalScale (show fraction.length ≤ 324 by omega)
    have hUnits : naturalOfDigits (whole ++ fraction) * unitsPerOne *
        10 ^ (324 - fraction.length) = d.coefficient * gridStep level := by
      have hLevel : 10 ^ d.exponent.toNat * 10 ^ (324 - fraction.length) = 10 ^ level := by
        rw [← Nat.pow_add]
        congr 1
        omega
      rw [hValue, gridStep, Nat.pow_eq, ← hLevel]
      ring
    rw [hScale, hUnits]
    exact hRounds
  rw [ofDecimal_eq, ofFraction, ofUnits, dif_pos (by rw [hNearest]; exact position.isLt)]
  exact congrArg (finite false) (Fin.ext hNearest)

/-- What is written for a number are digits with at most one point, and they denote it. -/
theorem exists_literalText_eq {n : Binary64} (h : n.isWritable = true) :
    ∃ whole fraction, n.literalText = pointed whole fraction ∧ whole ≠ [] ∧
      (whole ++ fraction).all Char.isDigit = true ∧ ofDecimal false whole fraction = n := by
  cases n with
  | nan => cases h
  | infinite negative =>
      cases negative with
      | true => cases h
      | false =>
          exact ⟨_, [], rfl, List.cons_ne_nil _ _, by decide +kernel, by decide +kernel⟩
  | finite negative position =>
      cases negative with
      | true => cases h
      | false =>
          rw [literalText, magnitudeText]
          split
          · rename_i hZero
            have hRead : ofDecimal false ['0'] [] = finite false ⟨0, by decide⟩ := by decide +kernel
            have hPosition : position = ⟨0, by decide⟩ := Fin.ext hZero
            exact ⟨['0'], [], rfl, List.cons_ne_nil _ _, rfl, hPosition ▸ hRead⟩
          · rename_i hNonzero
            obtain ⟨level, hExponent, hRounds⟩ :=
              exists_rounds_shortestFrom (Nat.pos_of_ne_zero hNonzero)
                ((unitsAt position * decimalScale / unitsPerOne).log2 * 31 / 100 + 2)
            obtain ⟨whole, fraction, hText, hWhole, hDigits, hValue, hLength⟩ :=
              (shortest position).exists_text_eq
            exact ⟨whole, fraction, hText, hWhole, hDigits,
              ofDecimal_eq_finite hExponent hRounds hValue hLength⟩

/-- What is written for a number begins with a digit. -/
theorem exists_literalText_eq_cons {n : Binary64} (h : n.isWritable = true) :
    ∃ c more, n.literalText = c :: more ∧ c.isDigit = true := by
  obtain ⟨whole, fraction, hText, hWhole, hDigits, -⟩ := exists_literalText_eq h
  obtain ⟨c, others, rfl⟩ := List.exists_cons_of_ne_nil hWhole
  rw [List.cons_append, List.all_cons, Bool.and_eq_true] at hDigits
  rw [hText, pointed]
  split
  · exact ⟨c, _, rfl, hDigits.1⟩
  · exact ⟨c, _, rfl, hDigits.1⟩

theorem isWritable_ofDecimal (whole fraction : List Char) :
    (ofDecimal false whole fraction).isWritable = true := by
  rw [ofDecimal, ofFraction, ofUnits]
  split <;> rfl

/-- The numbers with a literal are those that some digits with at most one point denote. -/
theorem isWritable_iff_exists_digits {n : Binary64} :
    n.isWritable = true ↔
      ∃ whole fraction : List Char, whole ++ fraction ≠ [] ∧
        (whole ++ fraction).all Char.isDigit = true ∧ ofDecimal false whole fraction = n := by
  constructor
  · intro h
    obtain ⟨whole, fraction, -, hWhole, hDigits, hEq⟩ := exists_literalText_eq h
    exact ⟨whole, fraction, List.append_ne_nil_of_left_ne_nil hWhole _, hDigits, hEq⟩
  · rintro ⟨whole, fraction, -, -, rfl⟩
    exact isWritable_ofDecimal whole fraction

end Binary64

end CborPath
