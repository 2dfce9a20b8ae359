import CborPath.Number.Arithmetic

/-!
# Decimal text of binary64 numbers

Reading goes from decimal digits to the nearest number.  Writing chooses the decimal with the
fewest digits that still reads back, and of those the closest one; where two are equally close the
greater is taken.  The chosen decimal is written positionally at every size, with no exponent and
with no point after a whole number.

Choosing works on a grid of decimals: level `j` holds the multiples of `10 ^ (j - 324)`.  Fractions
of units are compared after scaling by `10 ^ 324`, which makes every grid point a whole number.
The highest level with a point that reads back has the shortest decimals, and at every level only
the two neighbours of the number itself can qualify.
-/

namespace CborPath

/-- The natural number spelled by decimal digits. -/
def naturalOfDigits (digits : List Char) : Nat :=
  digits.foldl (fun n c => 10 * n + (c.toNat - 48)) 0

/-- The same number, read from its two halves so many times over.  Long digit sequences take much
less time this way, since the products are few and balanced. -/
def naturalByHalves : Nat → List Char → Nat
  | 0, digits => naturalOfDigits digits
  | levels + 1, digits =>
      let half := digits.length / 2
      naturalByHalves levels (digits.take half) * Nat.pow 10 (digits.length - half) +
        naturalByHalves levels (digits.drop half)

/-- The text of an integer. -/
def integerText (n : Int) : String :=
  String.ofList ((if n < 0 then ['-'] else []) ++ Nat.toDigits 10 n.natAbs)

/-- The nonnegative decimal `coefficient * 10 ^ exponent`. -/
structure Decimal where
  coefficient : Nat
  exponent : Int
  deriving DecidableEq, Repr

/-- Positional notation: the digits with a point among them, or zeros added on either side. -/
def Decimal.text (d : Decimal) : List Char :=
  let digits := Nat.toDigits 10 d.coefficient
  if 0 ≤ d.exponent then digits ++ List.replicate d.exponent.toNat '0'
  else
    let places := (-d.exponent).toNat
    if places < digits.length then
      digits.take (digits.length - places) ++ '.' :: digits.drop (digits.length - places)
    else '0' :: '.' :: (List.replicate (places - digits.length) '0' ++ digits)

namespace Binary64

/-- The number nearest to a decimal given by its digits before and after the point.  Digits are
halved until about a hundred are left. -/
def ofDecimal (negative : Bool) (whole fraction : List Char) : Binary64 :=
  let digits := whole ++ fraction
  ofFraction negative (naturalByHalves (digits.length / 64).log2 digits) (Nat.pow 10 fraction.length)

/-- Units are scaled by this factor before they are compared with decimals. -/
def decimalScale : Nat := Nat.pow 10 324

/-- Whether a fraction, given as scaled units, rounds to the magnitude at a positive position: it
lies between the midpoints to the two neighbours, and may be a midpoint if the position is even. -/
def roundsTo (position scaled : Nat) : Bool :=
  let low := (unitsAt (position - 1) + unitsAt position) * decimalScale
  let high := (unitsAt position + unitsAt (position + 1)) * decimalScale
  if position % 2 = 0 then low ≤ 2 * scaled && 2 * scaled ≤ high
  else low < 2 * scaled && 2 * scaled < high

/-- The distance of two grid points at a level, in scaled units. -/
def gridStep (level : Nat) : Nat :=
  Nat.pow 10 level * unitsPerOne

/-- The multiple of the step at a level that reads back as the magnitude at a position and is
closest to it, if there is one. -/
def gridPoint? (position level : Nat) : Option Nat :=
  let step := gridStep level
  let scaled := unitsAt position * decimalScale
  let below := scaled / step
  let lower := roundsTo position (below * step)
  let upper := roundsTo position ((below + 1) * step)
  if lower && (2 * (scaled % step) < step || !upper) then some below
  else if upper then some (below + 1)
  else none

/-- The grid point at the highest level, from the given one down, that has one. -/
def shortestFrom (position : Nat) : Nat → Decimal
  | 0 => ⟨(gridPoint? position 0).getD 0, -324⟩
  | level + 1 =>
      match gridPoint? position (level + 1) with
      | some coefficient => ⟨coefficient, (level + 1 : Int) - 324⟩
      | none => shortestFrom position level

/-- The shortest decimal that reads back as the magnitude at a positive position.  The search
starts at a level whose step exceeds the magnitude, since `2 ^ 100 < 10 ^ 31`. -/
def shortest (position : Nat) : Decimal :=
  shortestFrom position ((unitsAt position * decimalScale / unitsPerOne).log2 * 31 / 100 + 2)

/-- The text of a finite magnitude. -/
def magnitudeText (position : Nat) : List Char :=
  if position = 0 then ['0'] else (shortest position).text

/-- The text of a scalar: zero keeps its sign. -/
def text : Binary64 → String
  | nan => "NaN"
  | infinite negative => if negative then "-inf" else "inf"
  | finite negative position =>
      String.ofList ((if negative then ['-'] else []) ++ magnitudeText position)

/-- The text of a number in the query language: zero loses its sign, and the infinities are spelled
out. -/
def queryText : Binary64 → String
  | nan => "NaN"
  | infinite negative => if negative then "-Infinity" else "Infinity"
  | finite negative position =>
      if units position = 0 then "0" else (finite negative position).text

end Binary64

end CborPath
