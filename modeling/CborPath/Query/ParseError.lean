import CborPath.Query.Expr

/-!
# Parse errors

Why a text is not an expression, and the wording of that.
-/

namespace CborPath

/-- Why a text is not an expression. -/
inductive ParseCause
  | nestedTooDeeply
  | expectedChar (expected : Char) (found : Option Char)
  | expectedName (found : Option Char)
  | expectedExpression
  | unexpectedChar (found : Char)
  | unterminatedString
  | variableReference
  | namespacePrefix
  | unknownAxis (name : String)
  | unsupportedNodeType (name : String)
  | notNodeType (name : String)
  | unknownFunction (name : String)
  | wrongArity (function : CoreFunction) (count : Nat)
  deriving DecidableEq, Repr

namespace ParseCause

/-- What was found instead. -/
def foundText : Option Char → String
  | some c => "found '" ++ c.toString ++ "'"
  | none => "found end of input"

/-- The wording of a cause. -/
def message : ParseCause → String
  | nestedTooDeeply => "expression nested too deeply"
  | expectedChar c found => "expected '" ++ c.toString ++ "', " ++ foundText found
  | expectedName found => "expected name, " ++ foundText found
  | expectedExpression => "expected expression, found end of input"
  | unexpectedChar c => "unexpected character '" ++ c.toString ++ "'"
  | unterminatedString => "unterminated string"
  | variableReference => "variables are not supported"
  | namespacePrefix => "namespace prefixes are not supported"
  | unknownAxis name => "unknown axis '" ++ name ++ "'"
  | unsupportedNodeType name => "node type '" ++ name ++ "()' is not supported"
  | notNodeType name => "'" ++ name ++ "' is not a node type"
  | unknownFunction name => "unknown function '" ++ name ++ "'"
  | wrongArity f count =>
      "function '" ++ f.spelling ++ "' expects " ++ f.arityText ++ " argument(s), got " ++
        toString count

end ParseCause

/-- Why a text is not an expression, and after how many bytes that shows. -/
structure ParseError where
  cause : ParseCause
  position : Nat
  deriving DecidableEq, Repr

/-- The wording of a parse error. -/
def ParseError.message (e : ParseError) : String :=
  "parse error at position " ++ toString e.position ++ ": " ++ e.cause.message

end CborPath
