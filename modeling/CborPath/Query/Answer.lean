import CborPath.Navigator

/-!
# Answers

What an expression evaluates to: a node-set, kept as the list of its positions in document order
without repetitions, or an atomic value.  A node-set converts to a text or a number through its
first node.
-/

namespace CborPath

/-- The four types of answers. -/
inductive AnswerType
  | nodeSet
  | boolean
  | number
  | text
  deriving DecidableEq, Repr

/-- The name of a type of answers. -/
def AnswerType.name : AnswerType → String
  | nodeSet => "node-set"
  | boolean => "boolean"
  | number => "number"
  | text => "string"

/-- The result of an expression. -/
inductive Answer (P : Type)
  | nodes (positions : List P)
  | boolean (b : Bool)
  | number (n : Binary64)
  | text (s : String)
  deriving Repr

namespace Navigator

variable {P : Type} (nav : Navigator P)

/-- The atomic value of a position, which is its text unless it has one of its own. -/
def atomic (p : P) : Atomic :=
  (nav.typedValue p).getD (.text (nav.stringValue p))

/-- The number of a position. -/
def number (p : P) : Binary64 :=
  (nav.atomic p).toNumber

end Navigator

namespace Answer

variable {P : Type}

/-- The type of an answer. -/
def type : Answer P → AnswerType
  | nodes _ => .nodeSet
  | boolean _ => .boolean
  | number _ => .number
  | text _ => .text

/-- A node-set is true unless it is empty. -/
def toBoolean : Answer P → Bool
  | nodes positions => !positions.isEmpty
  | boolean b => b
  | number n => n.isTruthy
  | text s => !s.isEmpty

/-- The number of an answer.  The empty node-set has none. -/
def toNumber (nav : Navigator P) : Answer P → Binary64
  | nodes [] => .nan
  | nodes (p :: _) => nav.number p
  | boolean b => booleanNumber b
  | number n => n
  | text s => Binary64.ofText s

/-- The text of an answer.  That of the empty node-set is empty. -/
def toText (nav : Navigator P) : Answer P → String
  | nodes [] => ""
  | nodes (p :: _) => nav.stringValue p
  | boolean b => booleanText b
  | number n => n.queryText
  | text s => s

/-- The atomic value that an answer counts as beside a node-set. -/
def toAtomic (nav : Navigator P) : Answer P → Atomic
  | boolean b => .boolean b
  | number n => .number n
  | text s => .text s
  | nodes positions => .text ((nodes positions).toText nav)

end Answer

end CborPath
