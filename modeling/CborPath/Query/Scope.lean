import CborPath.Query.Typing

/-!
# What expressions look at

Two ways in which an expression may depend on its surroundings: by asking for the context position
or size, and by leaving what is below the context node.  Predicates have a context of their own, so
that position and size are not those of the surroundings inside them.
-/

namespace CborPath

/-- Whether a function asks for the context position or size. -/
def NullaryFunction.usesPosition : NullaryFunction → Bool
  | last | position => true
  | alwaysTrue | alwaysFalse => false

mutual

/-- Whether an expression asks for the context position or size. -/
def Expr.usesPosition : Expr → Bool
  | .path _ _ => false
  | .filter primary _ _ => primary.usesPosition
  | .union left right => left.usesPosition || right.usesPosition
  | .or left right => left.usesPosition || right.usesPosition
  | .and left right => left.usesPosition || right.usesPosition
  | .compare _ left right => left.usesPosition || right.usesPosition
  | .arithmetic _ left right => left.usesPosition || right.usesPosition
  | .negate operand => operand.usesPosition
  | .number _ => false
  | .literal _ => false
  | .nullary f => f.usesPosition
  | .unary _ argument => argument.usesPosition
  | .ofContext _ => false
  | .ofArgument _ argument => argument.usesPosition
  | .binary _ first second => first.usesPosition || second.usesPosition
  | .substringFrom text start => text.usesPosition || start.usesPosition
  | .substring text start length =>
      text.usesPosition || start.usesPosition || length.usesPosition
  | .translate text source target =>
      text.usesPosition || source.usesPosition || target.usesPosition
  | .concat first second others =>
      first.usesPosition || second.usesPosition || anyUsesPosition others

/-- Whether one of some expressions asks for the context position or size. -/
def anyUsesPosition : List Expr → Bool
  | [] => false
  | expr :: rest => expr.usesPosition || anyUsesPosition rest

end

/-- Whether an expression, used as a predicate, keeps a node regardless of its position. -/
def Expr.isPositionFree (predicate : Expr) : Bool :=
  predicate.type ≠ .number && !predicate.usesPosition

/-- Whether an axis leads to nothing but the context node and what is below it. -/
def Axis.isDownward : Axis → Bool
  | self | child | descendant | descendantOrSelf | attributes => true
  | _ => false

/-- Whether the steps of an expression lead to nothing but the context node and what is below it. -/
def Expr.leadsDown : Expr → Bool
  | path absolute steps => !absolute && steps.all fun step => step.axis.isDownward
  | filter _ _ steps => steps.all fun step => step.axis.isDownward
  | _ => true

/-- Whether an expression looks at nothing but the context node and what is below it. -/
def Expr.isDownward (expr : Expr) : Bool :=
  expr.subexpressions.all Expr.leadsDown

end CborPath
