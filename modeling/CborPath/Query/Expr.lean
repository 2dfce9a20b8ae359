import CborPath.Number.Binary64

/-!
# Expressions

The abstract syntax of the query language: location paths with their steps, filters, unions, the
operators, literals, and the calls of the core functions.  Functions are sorted by the arguments
they take, so that an expression cannot hold a call with a wrong number of arguments.
-/

namespace CborPath

/-- The directions in which a step looks from its context node. -/
inductive Axis
  | child
  | descendant
  | descendantOrSelf
  | parent
  | ancestor
  | ancestorOrSelf
  | followingSibling
  | precedingSibling
  | following
  | preceding
  | self
  | attributes
  deriving DecidableEq, Repr

namespace Axis

/-- All axes. -/
def all : List Axis :=
  [child, descendant, descendantOrSelf, parent, ancestor, ancestorOrSelf, followingSibling,
    precedingSibling, following, preceding, self, attributes]

/-- The name of an axis. -/
def name : Axis → String
  | child => "child"
  | descendant => "descendant"
  | descendantOrSelf => "descendant-or-self"
  | parent => "parent"
  | ancestor => "ancestor"
  | ancestorOrSelf => "ancestor-or-self"
  | followingSibling => "following-sibling"
  | precedingSibling => "preceding-sibling"
  | following => "following"
  | preceding => "preceding"
  | self => "self"
  | attributes => "attribute"

/-- The axis with a name. -/
def ofName? (name : String) : Option Axis :=
  all.find? fun axis => axis.name == name

/-- Whether an axis leads back toward the start of the document.  Such an axis numbers its nodes
from the context node outwards. -/
def isReverse : Axis → Bool
  | parent | ancestor | ancestorOrSelf | precedingSibling | preceding => true
  | _ => false

end Axis

/-- What a step asks of a node. -/
inductive NodeTest
  | named (name : String)
  | anyElement
  | anyNode
  | anyText
  deriving DecidableEq, Repr

/-- The comparison operators. -/
inductive Comparison
  | equal
  | notEqual
  | less
  | lessOrEqual
  | greater
  | greaterOrEqual
  deriving DecidableEq, Repr

/-- The spelling of a comparison operator. -/
def Comparison.spelling : Comparison → String
  | equal => "="
  | notEqual => "!="
  | less => "<"
  | lessOrEqual => "<="
  | greater => ">"
  | greaterOrEqual => ">="

/-- The arithmetic operators. -/
inductive Arithmetic
  | add
  | subtract
  | multiply
  | divide
  | modulo
  deriving DecidableEq, Repr

/-- The spelling of an arithmetic operator. -/
def Arithmetic.spelling : Arithmetic → String
  | add => "+"
  | subtract => "-"
  | multiply => "*"
  | divide => "div"
  | modulo => "mod"

/-- The functions without arguments. -/
inductive NullaryFunction
  | last
  | position
  | alwaysTrue
  | alwaysFalse
  deriving DecidableEq, Repr

/-- The functions of one argument. -/
inductive UnaryFunction
  | count
  | sum
  | not
  | boolean
  | floor
  | ceiling
  | round
  deriving DecidableEq, Repr

/-- The functions of one argument that may be left out; the context node then stands in for it. -/
inductive NodeFunction
  | name
  | localName
  | string
  | stringLength
  | normalizeSpace
  | number
  deriving DecidableEq, Repr

/-- The functions of two texts. -/
inductive BinaryFunction
  | contains
  | startsWith
  | endsWith
  | substringBefore
  | substringAfter
  deriving DecidableEq, Repr

/-- The name of a function without arguments. -/
def NullaryFunction.spelling : NullaryFunction → String
  | last => "last"
  | position => "position"
  | alwaysTrue => "true"
  | alwaysFalse => "false"

/-- The name of a function of one argument. -/
def UnaryFunction.spelling : UnaryFunction → String
  | count => "count"
  | sum => "sum"
  | not => "not"
  | boolean => "boolean"
  | floor => "floor"
  | ceiling => "ceiling"
  | round => "round"

/-- The name of a function of one argument that may be left out. -/
def NodeFunction.spelling : NodeFunction → String
  | name => "name"
  | localName => "local-name"
  | string => "string"
  | stringLength => "string-length"
  | normalizeSpace => "normalize-space"
  | number => "number"

/-- The name of a function of two texts. -/
def BinaryFunction.spelling : BinaryFunction → String
  | contains => "contains"
  | startsWith => "starts-with"
  | endsWith => "ends-with"
  | substringBefore => "substring-before"
  | substringAfter => "substring-after"

mutual

/-- An expression. -/
inductive Expr
  | path (absolute : Bool) (steps : List Step)
  | filter (primary : Expr) (predicates : List Expr) (steps : List Step)
  | union (left right : Expr)
  | or (left right : Expr)
  | and (left right : Expr)
  | compare (op : Comparison) (left right : Expr)
  | arithmetic (op : Arithmetic) (left right : Expr)
  | negate (operand : Expr)
  | number (n : Binary64)
  | literal (s : String)
  | nullary (f : NullaryFunction)
  | unary (f : UnaryFunction) (argument : Expr)
  | ofContext (f : NodeFunction)
  | ofArgument (f : NodeFunction) (argument : Expr)
  | binary (f : BinaryFunction) (first second : Expr)
  | substringFrom (text start : Expr)
  | substring (text start length : Expr)
  | translate (text source target : Expr)
  | concat (first second : Expr) (others : List Expr)

/-- A location step: where it looks, what it asks of a node, and what it keeps. -/
inductive Step
  | mk (axis : Axis) (test : NodeTest) (predicates : List Expr)

end

namespace Step

/-- Where a step looks. -/
def axis : Step → Axis
  | mk axis _ _ => axis

/-- What a step asks of a node. -/
def test : Step → NodeTest
  | mk _ test _ => test

/-- The predicates of a step. -/
def predicates : Step → List Expr
  | mk _ _ predicates => predicates

/-- The step that two slashes abbreviate. -/
def descendantOrSelf : Step := mk .descendantOrSelf .anyNode []

/-- The step that a point abbreviates. -/
def self : Step := mk .self .anyNode []

/-- The step that two points abbreviate. -/
def parent : Step := mk .parent .anyNode []

end Step

instance : Inhabited Expr := ⟨.path false []⟩

/-- The core functions, as one list. -/
inductive CoreFunction
  | nullary (f : NullaryFunction)
  | unary (f : UnaryFunction)
  | optional (f : NodeFunction)
  | binary (f : BinaryFunction)
  | substring
  | translate
  | concat
  deriving DecidableEq, Repr

namespace CoreFunction

/-- All core functions. -/
def all : List CoreFunction :=
  [nullary .last, nullary .position, nullary .alwaysTrue, nullary .alwaysFalse,
    unary .count, unary .sum, unary .not, unary .boolean, unary .floor, unary .ceiling,
    unary .round,
    optional .name, optional .localName, optional .string, optional .stringLength,
    optional .normalizeSpace, optional .number,
    binary .contains, binary .startsWith, binary .endsWith, binary .substringBefore,
    binary .substringAfter, substring, translate, concat]

/-- The name of a function. -/
def spelling : CoreFunction → String
  | nullary f => f.spelling
  | unary f => f.spelling
  | optional f => f.spelling
  | binary f => f.spelling
  | substring => "substring"
  | translate => "translate"
  | concat => "concat"

/-- The function with a name. -/
def ofName? (name : String) : Option CoreFunction :=
  all.find? fun function => function.spelling == name

/-- How many arguments a function takes, in words. -/
def arityText : CoreFunction → String
  | nullary _ => "0"
  | unary _ => "1"
  | optional _ => "0 to 1"
  | binary _ => "2"
  | substring => "2 to 3"
  | translate => "3"
  | concat => "at least 2"

/-- The call of a function, if it takes that many arguments. -/
def call? : CoreFunction → List Expr → Option Expr
  | nullary f, [] => some (.nullary f)
  | unary f, [a] => some (.unary f a)
  | optional f, [] => some (.ofContext f)
  | optional f, [a] => some (.ofArgument f a)
  | binary f, [a, b] => some (.binary f a b)
  | substring, [a, b] => some (.substringFrom a b)
  | substring, [a, b, c] => some (.substring a b c)
  | translate, [a, b, c] => some (.translate a b c)
  | concat, a :: b :: others => some (.concat a b others)
  | _, _ => none

end CoreFunction

end CborPath
