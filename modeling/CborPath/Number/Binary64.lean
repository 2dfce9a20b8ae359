/-!
# Binary64 numbers

Every number of the query language, and every floating-point scalar of a document, is an IEEE 754
binary64 number.  This module keeps such a number as what it is exactly: not a number, a signed
infinity, or a sign together with the position of its magnitude in the increasing list of all
finite magnitudes.

A finite magnitude is a whole number of *units*, one unit being `2 ^ (-1074)`, the least positive
magnitude.  `unitsAt` reads the units off a position, and `nearest` goes back from an arbitrary
nonnegative fraction to the position of the closest magnitude, ties going to the even position.
All arithmetic of the sibling modules is exact arithmetic on units followed by one `nearest`.

The position of a magnitude is also the number spelled by the low 63 bits of its interchange
format, which makes `ofBits` and `toBits` immediate.
-/

namespace CborPath

namespace Binary64

/-- How many finite magnitudes there are: 2047 exponents with `2 ^ 52` fractions each. -/
def finiteCount : Nat := 2047 * Nat.pow 2 52

/-- How many units make one. -/
def unitsPerOne : Nat := Nat.pow 2 1074

/-- The units of the magnitude at a position. -/
def unitsAt (position : Nat) : Nat :=
  if position < Nat.pow 2 52 then position
  else (Nat.pow 2 52 + position % Nat.pow 2 52) * Nat.pow 2 (position / Nat.pow 2 52 - 1)

/-- The quotient rounded to the nearest natural number, a half going to the even one. -/
def roundedQuotient (numerator denominator : Nat) : Nat :=
  let quotient := numerator / denominator
  let remainder := numerator % denominator
  if 2 * remainder < denominator then quotient
  else if denominator < 2 * remainder then quotient + 1
  else quotient + quotient % 2

/-- The position of the magnitude nearest to `numerator / denominator` units.  Fractions beyond the
finite magnitudes get positions from `finiteCount` on. -/
def nearest (numerator denominator : Nat) : Nat :=
  let shift := (numerator / denominator).log2 - 52
  shift * Nat.pow 2 52 + roundedQuotient numerator (denominator * Nat.pow 2 shift)

end Binary64

/-- An IEEE 754 binary64 number.  A finite one is given by its sign and the position of its
magnitude. -/
inductive Binary64
  | nan
  | infinite (negative : Bool)
  | finite (negative : Bool) (position : Fin Binary64.finiteCount)
  deriving DecidableEq, Repr

namespace Binary64

instance : Inhabited Binary64 := ⟨nan⟩

/-- The number nearest to `numerator / denominator` units, with the given sign. -/
def ofUnits (negative : Bool) (numerator denominator : Nat) : Binary64 :=
  if h : nearest numerator denominator < finiteCount then
    finite negative ⟨nearest numerator denominator, h⟩
  else infinite negative

/-- The number nearest to a fraction, with the given sign. -/
def ofFraction (negative : Bool) (numerator denominator : Nat) : Binary64 :=
  ofUnits negative (numerator * unitsPerOne) denominator

/-- The number nearest to a natural number. -/
def ofNat (n : Nat) : Binary64 :=
  ofFraction false n 1

/-- The number nearest to an integer. -/
def ofInt (n : Int) : Binary64 :=
  ofFraction (n < 0) n.natAbs 1

/-- Positive or negative zero. -/
def zero (negative : Bool) : Binary64 :=
  ofUnits negative 0 1

/-- Reads the interchange format of a binary format with the given numbers of exponent and fraction
bits, neither larger than binary64's.  Every not-a-number becomes `nan`. -/
def ofInterchange (exponentBits fractionBits bits : Nat) : Binary64 :=
  let magnitude := bits % Nat.pow 2 (exponentBits + fractionBits)
  let negative := bits / Nat.pow 2 (exponentBits + fractionBits) % 2 = 1
  let exponent := magnitude / Nat.pow 2 fractionBits
  let fraction := magnitude % Nat.pow 2 fractionBits
  let bias := Nat.pow 2 (exponentBits - 1) - 1
  let unit := Nat.pow 2 (1075 - bias - fractionBits)
  if exponent = Nat.pow 2 exponentBits - 1 then
    if fraction = 0 then infinite negative else nan
  else if exponent = 0 then ofUnits negative (fraction * unit) 1
  else ofUnits negative ((Nat.pow 2 fractionBits + fraction) * Nat.pow 2 (exponent - 1) * unit) 1

/-- Reads the 64 bits of the interchange format. -/
def ofBits (bits : Nat) : Binary64 :=
  let magnitude := bits % Nat.pow 2 63
  let negative := bits / Nat.pow 2 63 % 2 = 1
  if h : magnitude < finiteCount then finite negative ⟨magnitude, h⟩
  else if magnitude = finiteCount then infinite negative
  else nan

/-- The 64 bits of the interchange format; `none` for not-a-number, which has many. -/
def toBits? : Binary64 → Option Nat
  | nan => none
  | infinite negative => some (negative.toNat * Nat.pow 2 63 + finiteCount)
  | finite negative position => some (negative.toNat * Nat.pow 2 63 + position)

/-- Whether this is not-a-number. -/
def isNaN : Binary64 → Bool
  | nan => true
  | _ => false

/-- The units of a finite number's magnitude. -/
def units (position : Fin finiteCount) : Nat :=
  unitsAt position

/-- The units of a signed finite number. -/
def signedUnits (negative : Bool) (position : Fin finiteCount) : Int :=
  if negative then -(units position : Int) else units position

end Binary64

end CborPath
