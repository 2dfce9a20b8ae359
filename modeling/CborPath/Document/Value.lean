import CborPath.Document.Atomic
import CborPath.Text.Utf8

/-!
# Documents

A document is what one CBOR item holds once its tags are dropped: a sequence, a mapping that keeps
the order and the repetitions of its entries, or a scalar.
-/

namespace CborPath

/-- A value without parts. -/
inductive Scalar
  | null
  | boolean (b : Bool)
  | integer (n : Int)
  | float (x : Binary64)
  | text (s : String)
  | bytes (b : List UInt8)
  deriving DecidableEq, Repr

namespace Scalar

/-- The name of a scalar's type. -/
def typeName : Scalar → String
  | null => "null"
  | boolean _ => "boolean"
  | integer _ => "integer"
  | float _ => "float"
  | text _ => "text"
  | bytes _ => "bytes"

/-- The text of a scalar.  Null has the empty text, and bytes are read as UTF-8. -/
def rendition : Scalar → String
  | null => ""
  | boolean b => booleanText b
  | integer n => integerText n
  | float x => x.text
  | text s => s
  | bytes b => Utf8.decodeLossy b

/-- What a scalar counts as in comparisons.  Null counts as nothing. -/
def toAtomic? : Scalar → Option Atomic
  | null => none
  | boolean b => some (.boolean b)
  | integer n => some (.number (Binary64.ofInt n))
  | float x => some (.number x)
  | text s => some (.text s)
  | bytes b => some (.text (Utf8.decodeLossy b))

end Scalar

/-- A decoded document. -/
inductive Value
  | sequence (items : List Value)
  | mapping (entries : List (Value × Value))
  | scalar (s : Scalar)
  deriving Repr

namespace Value

instance : Inhabited Value := ⟨scalar .null⟩

/-- The name of a value's type. -/
def typeName : Value → String
  | sequence _ => "sequence"
  | mapping _ => "mapping"
  | scalar s => s.typeName

/-- Whether this is a sequence. -/
def isSequence : Value → Bool
  | sequence _ => true
  | _ => false

end Value

/-- A mapping key that cannot name an element, by the name of its type. -/
structure UnsupportedKey where
  keyType : String
  deriving DecidableEq, Repr

/-- What is wrong with such a key. -/
def UnsupportedKey.message (e : UnsupportedKey) : String :=
  s!"unsupported map key type: {e.keyType}"

/-- The element name that a mapping key stands for.  The name of a number starts with a letter, so
that it can be written in a path. -/
def Value.elementName : Value → Except UnsupportedKey String
  | scalar (.text s) => .ok s
  | scalar (.bytes b) => .ok (Utf8.decodeLossy b)
  | scalar (.boolean b) => .ok (booleanText b)
  | scalar (.integer n) => .ok ("n" ++ (Scalar.integer n).rendition)
  | scalar (.float x) => .ok ("n" ++ (Scalar.float x).rendition)
  | key => .error ⟨key.typeName⟩

end CborPath
