import CborPath.Cbor.Decode
import CborPath.Query.Eval
import CborPath.Query.Parse
import CborPath.Tree.Build

/-!
# Errors

Everything that can go wrong between the bytes of a document and the answer to a query, with its
wording.
-/

namespace CborPath

/-- Why a document or a query fails. -/
inductive Error
  | decode (e : DecodeError)
  | unsupportedKey (e : UnsupportedKey)
  | invalidExpression (expression : String) (e : ParseError)
  | evaluation (expression : String) (e : EvalError)
  deriving DecidableEq, Repr

namespace Error

/-- What lies behind an error about an expression. -/
def cause? : Error → Option String
  | decode _ => none
  | unsupportedKey _ => none
  | invalidExpression _ e => some e.message
  | evaluation _ e => some e.message

/-- The wording of an error. -/
def message : Error → String
  | decode e => e.message
  | unsupportedKey e => e.message
  | invalidExpression expression e =>
      "invalid expression '" ++ expression ++ "': " ++ e.message
  | evaluation expression e =>
      "cannot evaluate '" ++ expression ++ "': " ++ e.message

end Error

/-- The tree of a decoded document. -/
def Value.toTree (value : Value) : Except Error Tree :=
  (Tree.build value).mapError Error.unsupportedKey

/-- The tree of the document that an input holds. -/
def load (input : Input) : Except Error Tree := do
  let value ← (decode input).mapError Error.decode
  value.toTree

end CborPath
