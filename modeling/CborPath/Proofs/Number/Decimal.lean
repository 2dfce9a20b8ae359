import CborPath.Number.Decimal
import Mathlib.Data.List.Induction
import Mathlib.Data.Nat.Digits.Defs

/-!
# Reading digits

Digits may be read from two halves, and the halves from theirs: the number stays the one that they
spell from left to right.
-/

namespace CborPath

/-- Reading on from a number shifts it by the digits that are read. -/
theorem foldl_digits (digits : List Char) (n : Nat) :
    digits.foldl (fun n c => 10 * n + (c.toNat - 48)) n =
      n * 10 ^ digits.length + naturalOfDigits digits := by
  induction digits generalizing n with
  | nil => simp [naturalOfDigits]
  | cons c rest ih =>
      rw [naturalOfDigits, List.foldl_cons, List.foldl_cons, ih, ih (10 * 0 + _), List.length_cons,
        Nat.pow_succ', Nat.add_mul, Nat.add_mul, ← Nat.mul_assoc, Nat.mul_comm 10 n]
      omega

/-- Digits after others shift the number that the others spell. -/
theorem naturalOfDigits_append (first second : List Char) :
    naturalOfDigits (first ++ second) =
      naturalOfDigits first * 10 ^ second.length + naturalOfDigits second := by
  rw [naturalOfDigits, List.foldl_append, foldl_digits]
  rfl

/-- Digits spell the number that they are the digits of, the most significant first. -/
theorem naturalOfDigits_eq_ofDigits (digits : List Char) :
    naturalOfDigits digits = Nat.ofDigits 10 (digits.reverse.map fun c => c.toNat - '0'.toNat) := by
  induction digits using List.reverseRecOn with
  | nil => rfl
  | append_singleton digits c ih =>
      rw [List.reverse_append, List.reverse_singleton, List.singleton_append, List.map_cons,
        Nat.ofDigits_cons, ← ih, naturalOfDigits, List.foldl_append, Nat.add_comm]
      rfl

/-- Reading by halves gives the number that the digits spell. -/
theorem naturalByHalves_eq (levels : Nat) (digits : List Char) :
    naturalByHalves levels digits = naturalOfDigits digits := by
  induction levels generalizing digits with
  | zero => rfl
  | succ levels ih =>
      rw [naturalByHalves, Nat.pow_eq, ih, ih, ← List.length_drop, ← naturalOfDigits_append,
        List.take_append_drop]

namespace Binary64

/-- How often the digits are halved makes no difference. -/
theorem ofDecimal_eq (negative : Bool) (whole fraction : List Char) :
    ofDecimal negative whole fraction =
      ofFraction negative (naturalOfDigits (whole ++ fraction)) (10 ^ fraction.length) := by
  rw [ofDecimal, Nat.pow_eq, naturalByHalves_eq]

end Binary64

end CborPath
