import CborPath.Query.Parse
import CborPath.Query.Subexpression

/-!
# Writing expressions

Every expression that can be read has a text in which nothing is abbreviated: each step names its
axis, and parentheses stand around every operand and around the primary of every filter.  An
expression that no text denotes is given some text all the same; `isWritable` says which
expressions do not need that.
-/

namespace CborPath

/-- A number literal.  Digits can denote every nonnegative number, and the positive infinity as
soon as there are more of them than any finite number has. -/
def Binary64.literalText : Binary64 → List Char
  | nan => ['0']
  | infinite _ => '1' :: List.replicate 309 '0'
  | finite _ position => magnitudeText position

/-- A text literal, in single quotes if they do not occur in the text. -/
def quotedText (s : List Char) : List Char :=
  let quote := if '\x27' ∈ s then '"' else '\x27'
  quote :: (s ++ [quote])

/-- A text in parentheses. -/
def parenthesized (s : List Char) : List Char :=
  '(' :: (s ++ [')'])

/-- A function call. -/
def callText (function : String) (arguments : List (List Char)) : List Char :=
  function.toList ++ parenthesized (List.intercalate [','] arguments)

/-- A node test. -/
def NodeTest.written : NodeTest → List Char
  | named name => name.toList
  | anyElement => ['*']
  | anyNode => ['n', 'o', 'd', 'e', '(', ')']
  | anyText => ['t', 'e', 'x', 't', '(', ')']

/-- Two operands in parentheses with an operator between them. -/
def infixText (operator : String) (left right : List Char) : List Char :=
  parenthesized left ++ ' ' :: (operator.toList ++ ' ' :: parenthesized right)

mutual

/-- The text of an expression. -/
def Expr.written : Expr → List Char
  | .path absolute steps =>
      (if absolute then ['/'] else []) ++ List.intercalate ['/'] (writtenSteps steps)
  | .filter primary predicates steps =>
      parenthesized primary.written ++ writtenPredicates predicates ++
        (writtenSteps steps).flatMap ('/' :: ·)
  | .union left right => infixText "|" left.written right.written
  | .or left right => infixText "or" left.written right.written
  | .and left right => infixText "and" left.written right.written
  | .compare op left right => infixText op.spelling left.written right.written
  | .arithmetic op left right => infixText op.spelling left.written right.written
  | .negate operand => '-' :: parenthesized operand.written
  | .number n => n.literalText
  | .literal s => quotedText s.toList
  | .nullary f => callText f.spelling []
  | .unary f argument => callText f.spelling [argument.written]
  | .ofContext f => callText f.spelling []
  | .ofArgument f argument => callText f.spelling [argument.written]
  | .binary f first second => callText f.spelling [first.written, second.written]
  | .substringFrom text start =>
      callText CoreFunction.substring.spelling [text.written, start.written]
  | .substring text start length =>
      callText CoreFunction.substring.spelling [text.written, start.written, length.written]
  | .translate text source target =>
      callText CoreFunction.translate.spelling [text.written, source.written, target.written]
  | .concat first second others =>
      callText CoreFunction.concat.spelling
        (first.written :: second.written :: writtenArguments others)

/-- The texts of several expressions. -/
def writtenArguments : List Expr → List (List Char)
  | [] => []
  | expr :: rest => expr.written :: writtenArguments rest

/-- The text of predicates in their brackets. -/
def writtenPredicates : List Expr → List Char
  | [] => []
  | predicate :: rest => '[' :: (predicate.written ++ ']' :: writtenPredicates rest)

/-- The text of a step. -/
def Step.written : Step → List Char
  | .mk axis test predicates =>
      axis.name.toList ++ ':' :: ':' :: (test.written ++ writtenPredicates predicates)

/-- The texts of several steps. -/
def writtenSteps : List Step → List (List Char)
  | [] => []
  | step :: rest => step.written :: writtenSteps rest

end

/-- The text of an expression. -/
def Expr.render (expr : Expr) : String :=
  String.ofList expr.written

/-- Whether a node test has a text. -/
def NodeTest.isWritable : NodeTest → Bool
  | named name => Parse.isName name.toList
  | _ => true

/-- Whether a number can be written as a literal. -/
def Binary64.isWritable : Binary64 → Bool
  | nan => false
  | infinite negative => !negative
  | finite negative _ => !negative

/-- Whether a text can be written as a literal: there are no escapes, so it must lack one of the two
quotes. -/
def isQuotable (s : String) : Bool :=
  !s.toList.elem '\x27' || !s.toList.elem '"'

/-- Whether an expression has a text, as far as it is not up to the expressions within it. -/
def Expr.hasForm : Expr → Bool
  | path absolute steps =>
      (absolute || !steps.isEmpty) && steps.all fun step => step.test.isWritable
  | filter _ predicates steps =>
      (!predicates.isEmpty || !steps.isEmpty) && steps.all fun step => step.test.isWritable
  | number n => n.isWritable
  | literal s => isQuotable s
  | _ => true

/-- Whether an expression has a text. -/
def Expr.isWritable (expr : Expr) : Bool :=
  expr.subexpressions.all Expr.hasForm

end CborPath
