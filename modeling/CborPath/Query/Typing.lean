import CborPath.Query.Answer
import CborPath.Query.Subexpression

/-!
# Types of expressions

The type of an expression's value shows in its outermost constructor alone.  An expression is well
typed if a node-set stands wherever one is needed: as the primary of a filter, as an operand of a
union, and as the argument of the functions that look at nodes.
-/

namespace CborPath

/-- The type of a function's value. -/
def NullaryFunction.type : NullaryFunction → AnswerType
  | last | position => .number
  | alwaysTrue | alwaysFalse => .boolean

/-- The type of a function's value. -/
def UnaryFunction.type : UnaryFunction → AnswerType
  | count | sum | floor | ceiling | round => .number
  | not | boolean => .boolean

/-- The type of a function's value. -/
def NodeFunction.type : NodeFunction → AnswerType
  | name | localName | string | normalizeSpace => .text
  | stringLength | number => .number

/-- The type of a function's value. -/
def BinaryFunction.type : BinaryFunction → AnswerType
  | contains | startsWith | endsWith => .boolean
  | substringBefore | substringAfter => .text

/-- Whether a function's argument has to be a node-set. -/
def UnaryFunction.needsNodes : UnaryFunction → Bool
  | count | sum => true
  | _ => false

/-- Whether a function's argument has to be a node-set. -/
def NodeFunction.needsNodes : NodeFunction → Bool
  | name | localName => true
  | _ => false

/-- The type of an expression's value. -/
def Expr.type : Expr → AnswerType
  | path _ _ => .nodeSet
  | filter _ _ _ => .nodeSet
  | union _ _ => .nodeSet
  | or _ _ => .boolean
  | and _ _ => .boolean
  | compare _ _ _ => .boolean
  | arithmetic _ _ _ => .number
  | negate _ => .number
  | number _ => .number
  | literal _ => .text
  | nullary f => f.type
  | unary f _ => f.type
  | ofContext f => f.type
  | ofArgument f _ => f.type
  | binary f _ _ => f.type
  | substringFrom _ _ => .text
  | substring _ _ _ => .text
  | translate _ _ _ => .text
  | concat _ _ _ => .text

/-- The subexpressions of an expression in whose place a node-set is needed. -/
def Expr.nodeSetOperands : Expr → List Expr
  | filter primary _ _ => [primary]
  | union left right => [left, right]
  | unary f argument => if f.needsNodes then [argument] else []
  | ofArgument f argument => if f.needsNodes then [argument] else []
  | _ => []

/-- Whether a node-set stands in an expression, and in all expressions within it, wherever one is
needed. -/
def Expr.isWellTyped (expr : Expr) : Bool :=
  expr.subexpressions.all fun part => part.nodeSetOperands.all fun operand =>
    operand.type = .nodeSet

end CborPath
