import CborPath.Number.Decimal
import CborPath.Text.Class

/-!
# Atomic values

The three types of the query language that are not node-sets, and the conversions between them.

A text denotes a number if, without the white space around it, it is an optional minus sign and
decimal digits with at most one point among, before or after them.  Every other text denotes
not-a-number: there are no exponents, no plus sign and no names of special values.
-/

namespace CborPath

/-- Whether a text consists of decimal digits, at least one, and at most one point. -/
def isDecimalText (text : List Char) : Bool :=
  text.all (fun c => c.isDigit || c == '.') && text.count '.' ≤ 1 && text.any Char.isDigit

/-- The number nearest to the decimal spelled by digits and an optional point. -/
def Binary64.ofDecimalText (negative : Bool) (text : List Char) : Binary64 :=
  ofDecimal negative (text.takeWhile (· != '.')) ((text.dropWhile (· != '.')).drop 1)

/-- The number that a text denotes. -/
def Binary64.ofText (text : String) : Binary64 :=
  match Text.trim text.toList with
  | '-' :: digits => if isDecimalText digits then ofDecimalText true digits else nan
  | digits => if isDecimalText digits then ofDecimalText false digits else nan

/-- The text of a truth value. -/
def booleanText (b : Bool) : String :=
  if b then "true" else "false"

/-- The number of a truth value. -/
def booleanNumber (b : Bool) : Binary64 :=
  Binary64.ofNat b.toNat

/-- A truth value, a number or a text. -/
inductive Atomic
  | boolean (b : Bool)
  | number (n : Binary64)
  | text (s : String)
  deriving DecidableEq, Repr

namespace Atomic

/-- Zeros, not-a-number and the empty text are false. -/
def toBoolean : Atomic → Bool
  | boolean b => b
  | number n => n.isTruthy
  | text s => !s.isEmpty

/-- A text converts to the number that it denotes. -/
def toNumber : Atomic → Binary64
  | boolean b => booleanNumber b
  | number n => n
  | text s => Binary64.ofText s

/-- The text that a value is written as. -/
def toText : Atomic → String
  | boolean b => booleanText b
  | number n => n.queryText
  | text s => s

end Atomic

end CborPath
