import CborPath.Number.Binary64

/-!
# Arithmetic on binary64 numbers

Addition, subtraction, multiplication and division are the exact results on units, rounded once.
The remainder, the floor and the ceiling of a finite number are exact, so for them the rounding
never moves the result.  Comparison is partial: nothing compares with not-a-number, and the two
zeros are equal.
-/

namespace CborPath

namespace Binary64

/-- The number with the opposite sign. -/
def neg : Binary64 → Binary64
  | nan => nan
  | infinite negative => infinite (!negative)
  | finite negative position => finite (!negative) position

/-- The number nearest to a whole number of units.  A zero gets the sign asked for. -/
def ofSignedUnits (zeroNegative : Bool) (total : Int) : Binary64 :=
  if total = 0 then zero zeroNegative
  else ofUnits (total < 0) total.natAbs 1

/-- The sum.  Opposite numbers, and zeros of different signs, add up to the positive zero. -/
def add : Binary64 → Binary64 → Binary64
  | nan, _ => nan
  | _, nan => nan
  | infinite s, infinite t => if s = t then infinite s else nan
  | infinite s, finite _ _ => infinite s
  | finite _ _, infinite t => infinite t
  | finite s a, finite t b => ofSignedUnits (s && t) (signedUnits s a + signedUnits t b)

/-- The difference. -/
def sub (x y : Binary64) : Binary64 :=
  add x (neg y)

/-- The product. -/
def mul : Binary64 → Binary64 → Binary64
  | nan, _ => nan
  | _, nan => nan
  | infinite s, infinite t => infinite (s ^^ t)
  | infinite s, finite t b => if units b = 0 then nan else infinite (s ^^ t)
  | finite s a, infinite t => if units a = 0 then nan else infinite (s ^^ t)
  | finite s a, finite t b => ofUnits (s ^^ t) (units a * units b) unitsPerOne

/-- The quotient.  A nonzero number divided by a zero is infinite. -/
def div : Binary64 → Binary64 → Binary64
  | nan, _ => nan
  | _, nan => nan
  | infinite _, infinite _ => nan
  | infinite s, finite t _ => infinite (s ^^ t)
  | finite s _, infinite t => zero (s ^^ t)
  | finite s a, finite t b =>
      if units b = 0 then
        if units a = 0 then nan else infinite (s ^^ t)
      else ofUnits (s ^^ t) (units a * unitsPerOne) (units b)

/-- The remainder of the division truncated toward zero.  It has the sign of the dividend. -/
def rem : Binary64 → Binary64 → Binary64
  | nan, _ => nan
  | _, nan => nan
  | infinite _, _ => nan
  | finite s a, infinite _ => finite s a
  | finite s a, finite _ b =>
      if units b = 0 then nan else ofUnits s (units a % units b) 1

/-- The greatest integer that is not greater. -/
def floor : Binary64 → Binary64
  | nan => nan
  | infinite negative => infinite negative
  | finite negative position =>
      let whole := units position / unitsPerOne
      if units position % unitsPerOne = 0 then finite negative position
      else if negative then ofFraction true (whole + 1) 1
      else ofFraction false whole 1

/-- The least integer that is not less. -/
def ceil : Binary64 → Binary64
  | nan => nan
  | infinite negative => infinite negative
  | finite negative position =>
      let whole := units position / unitsPerOne
      if units position % unitsPerOne = 0 then finite negative position
      else if negative then ofFraction true whole 1
      else ofFraction false (whole + 1) 1

/-- The order of two numbers, where they have one. -/
def order? : Binary64 → Binary64 → Option Ordering
  | nan, _ => none
  | _, nan => none
  | infinite s, infinite t => some (compare t.toNat s.toNat)
  | infinite s, finite _ _ => some (if s then .lt else .gt)
  | finite _ _, infinite t => some (if t then .gt else .lt)
  | finite s a, finite t b => some (compare (signedUnits s a) (signedUnits t b))

/-- Numeric equality.  Not-a-number equals nothing, and the two zeros are equal. -/
def equals (x y : Binary64) : Bool :=
  order? x y == some .eq

/-- Strictly less. -/
def less (x y : Binary64) : Bool :=
  order? x y == some .lt

/-- Less or equal. -/
def atMost (x y : Binary64) : Bool :=
  less x y || equals x y

/-- Whether a number counts as true: all do but the zeros and not-a-number. -/
def isTruthy (x : Binary64) : Bool :=
  !(x.equals (zero false)) && !x.isNaN

/-- One half. -/
def half : Binary64 :=
  ofFraction false 1 2

/-- The nearest integer, found as the floor of the sum with one half. -/
def round (x : Binary64) : Binary64 :=
  match x with
  | finite _ _ => floor (add x half)
  | other => other

/-- The sum of a list, from the left, starting with the negative zero. -/
def sum (numbers : List Binary64) : Binary64 :=
  numbers.foldl add (zero true)

end Binary64

end CborPath
