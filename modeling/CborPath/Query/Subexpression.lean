import CborPath.Query.Expr

/-!
# Subexpressions

The expressions that occur in an expression, also in the predicates of its steps.  A property that
an expression has if all its parts do is stated over this list.
-/

namespace CborPath

mutual

/-- An expression and all expressions within it. -/
def Expr.subexpressions : Expr → List Expr
  | .path absolute steps => .path absolute steps :: stepsSubexpressions steps
  | .filter primary predicates steps =>
      .filter primary predicates steps ::
        (primary.subexpressions ++ listSubexpressions predicates ++ stepsSubexpressions steps)
  | .union left right => .union left right :: (left.subexpressions ++ right.subexpressions)
  | .or left right => .or left right :: (left.subexpressions ++ right.subexpressions)
  | .and left right => .and left right :: (left.subexpressions ++ right.subexpressions)
  | .compare op left right =>
      .compare op left right :: (left.subexpressions ++ right.subexpressions)
  | .arithmetic op left right =>
      .arithmetic op left right :: (left.subexpressions ++ right.subexpressions)
  | .negate operand => .negate operand :: operand.subexpressions
  | .number n => [.number n]
  | .literal s => [.literal s]
  | .nullary f => [.nullary f]
  | .unary f argument => .unary f argument :: argument.subexpressions
  | .ofContext f => [.ofContext f]
  | .ofArgument f argument => .ofArgument f argument :: argument.subexpressions
  | .binary f first second =>
      .binary f first second :: (first.subexpressions ++ second.subexpressions)
  | .substringFrom text start =>
      .substringFrom text start :: (text.subexpressions ++ start.subexpressions)
  | .substring text start length =>
      .substring text start length ::
        (text.subexpressions ++ start.subexpressions ++ length.subexpressions)
  | .translate text source target =>
      .translate text source target ::
        (text.subexpressions ++ source.subexpressions ++ target.subexpressions)
  | .concat first second others =>
      .concat first second others ::
        (first.subexpressions ++ second.subexpressions ++ listSubexpressions others)

/-- The subexpressions of some expressions. -/
def listSubexpressions : List Expr → List Expr
  | [] => []
  | expr :: rest => expr.subexpressions ++ listSubexpressions rest

/-- The subexpressions of a step's predicates. -/
def Step.subexpressions : Step → List Expr
  | .mk _ _ predicates => listSubexpressions predicates

/-- The subexpressions of the predicates of some steps. -/
def stepsSubexpressions : List Step → List Expr
  | [] => []
  | step :: rest => step.subexpressions ++ stepsSubexpressions rest

end

end CborPath
