import CborPath.Proofs.Number.Numeral
import CborPath.Proofs.Number.Shortest
import CborPath.Proofs.Number.Whole

/-!
# Numbers read back

The texts that numbers are written as are read as these numbers: those of integers as the numbers that
the integers are converted to, those of finite numbers as the numbers themselves.  The texts of the others
are no numerals.
-/

namespace CborPath

/-- Digits with a point before some of them are a decimal. -/
theorem spellsDecimal_pointed {whole fraction : List Char} (hSome : whole ≠ [])
    (hDigits : (whole ++ fraction).all Char.isDigit = true) :
    SpellsDecimal (pointed whole fraction) whole fraction := by
  rw [List.all_append, Bool.and_eq_true] at hDigits
  rw [pointed]
  split
  · rename_i hNone
    subst hNone
    exact .digits hSome hDigits.1
  · exact .point (.inl hSome) hDigits.1 hDigits.2

namespace Binary64

/-- Whether this is a finite number. -/
def isFinite : Binary64 → Bool
  | finite _ _ => true
  | _ => false

/-- Every number equals itself, and not-a-number does not. -/
theorem equals_self (x : Binary64) :
    x.equals x = !x.isNaN := by
  rw [equals]
  cases x with
  | nan => rfl
  | infinite negative => cases negative <;> rfl
  | finite negative position => exact congrArg (some · == some .eq) (Int.compare_eq_eq.2 rfl)

section ReadBack

variable {whole fraction decimal : List Char}

/-- A decimal with its sign is read as what it spells. -/
theorem ofText_signed (h : SpellsDecimal decimal whole fraction) (negative : Bool) :
    ofText (String.ofList ((if negative then ['-'] else []) ++ decimal)) =
      ofDecimal negative whole fraction :=
  ofText_of_isNumeral ⟨[], decimal, [], by simp, rfl, rfl, h⟩

/-- The text of an integer is read as the nearest number. -/
theorem ofText_integerText (n : Int) :
    ofText (integerText n) = ofInt n := by
  have hDecimal : SpellsDecimal (Nat.toDigits 10 n.natAbs) (Nat.toDigits 10 n.natAbs) [] :=
    .digits Nat.toDigits_ne_nil (all_isDigit_toDigits n.natAbs)
  have hRead := ofText_signed hDecimal (n < 0)
  rw [ofDecimal_eq, List.append_nil, naturalOfDigits_toDigits] at hRead
  rw [integerText, ofInt]
  simpa using hRead

/-- The text of a finite number is read as that number, with its sign. -/
theorem ofText_text (negative : Bool) (position : Fin finiteCount) :
    ofText (finite negative position).text = finite negative position := by
  have hWritable : (finite false position).isWritable = true := rfl
  obtain ⟨whole, fraction, hText, hSome, hDigits, hRead⟩ := exists_literalText_eq hWritable
  have hMagnitude : magnitudeText position = pointed whole fraction := hText
  rw [text, hMagnitude, ofText_signed (spellsDecimal_pointed hSome hDigits)]
  cases negative with
  | false => exact hRead
  | true =>
      have hOpposite := neg_ofDecimal false whole fraction
      rw [hRead] at hOpposite
      exact hOpposite.symm

/-- Without the sign of a zero, the text is still read as an equal number. -/
theorem equals_ofText_queryText {x : Binary64} (h : x.isFinite = true) :
    (ofText x.queryText).equals x = true := by
  cases x with
  | nan => cases h
  | infinite negative => cases h
  | finite negative position =>
      rw [queryText]
      split
      · rename_i hZero
        have hRead : ofText "0" = finite false ⟨0, by decide⟩ := by decide +kernel
        have hUnits : signedUnits negative position = 0 := by
          rw [signedUnits, hZero]
          cases negative <;> rfl
        rw [hRead, equals, beq_iff_eq]
        exact congrArg some (Int.compare_eq_eq.2 hUnits.symm)
      · rw [ofText_text, equals_self]
        rfl

/-- What is not finite has a text that is no numeral. -/
theorem ofText_queryText_eq_nan {x : Binary64} (h : x.isFinite = false) :
    ofText x.queryText = nan := by
  cases x with
  | nan => rfl
  | infinite negative => cases negative <;> rfl
  | finite negative position => cases h

end ReadBack

end Binary64

end CborPath
