import CborPath.Query.Lexeme

/-!
# Reading expressions

Expressions are read by recursive descent from characters to abstract syntax.  There are no tokens:
white space may stand between the parts of an expression, and a word is an operator where an
operator can stand and a name elsewhere.

Only three things nest: a parenthesised, bracketed or argument expression inside its surroundings,
and the operand of a unary minus.  All readers take the reader of a nested expression as an
argument, and `unary` ties the knot by recursion on the nesting that is still allowed.  Everything
that is merely repeated (operators of one precedence, predicates, steps, arguments) is a loop whose
bound is the length of the text, which every round shortens.

A failure keeps the text that was left where it was found; `parse` turns that into a position in
bytes.
-/

namespace CborPath

namespace Parse

open Text (skipSpace)

section Nested

variable (nested : Reader Expr)

/-- Takes off predicates, at most the given number of them. -/
def predicatesWithin : Nat → Reader (List Expr)
  | 0, s => .ok ([], s)
  | bound + 1, s =>
      match skipSpace s with
      | '[' :: rest => do
          let (predicate, rest) ← nested rest
          let rest ← expect ']' rest
          let (others, rest) ← predicatesWithin bound rest
          return (predicate :: others, rest)
      | rest => .ok ([], rest)

/-- Takes off all predicates that follow. -/
def predicates : Reader (List Expr) :=
  fun s => predicatesWithin nested (s.length + 1) s

/-- Takes off a step.  The abbreviated steps have no predicates. -/
def step (s : List Char) : Except Fault (Step × List Char) :=
  match skipSpace s with
  | '.' :: '.' :: rest => .ok (.parent, rest)
  | '.' :: rest => .ok (.self, rest)
  | start => do
      let (axis, rest) ← axis start
      let (test, rest) ← nodeTest rest
      let (predicates, rest) ← predicates nested rest
      return (.mk axis test predicates, rest)

/-- Takes off steps that are led by slashes, at most the given number of them. -/
def pathTailWithin : Nat → Reader (List Step)
  | 0, s => .ok ([], s)
  | bound + 1, s =>
      match skipSpace s with
      | '/' :: '/' :: rest => do
          let (next, rest) ← step nested rest
          let (others, rest) ← pathTailWithin bound rest
          return (.descendantOrSelf :: next :: others, rest)
      | '/' :: rest => do
          let (next, rest) ← step nested rest
          let (others, rest) ← pathTailWithin bound rest
          return (next :: others, rest)
      | rest => .ok ([], rest)

/-- Takes off all steps that follow, each led by one slash or two. -/
def pathTail : Reader (List Step) :=
  fun s => pathTailWithin nested (s.length + 1) s

/-- Takes off one or more steps. -/
def relativePath : Reader (List Step) :=
  fun s => do
    let (first, rest) ← step nested s
    let (others, rest) ← pathTail nested rest
    return (first :: others, rest)

/-- Whether a step can begin here. -/
def startsStep (s : List Char) : Bool :=
  s.head?.any fun c => isNameStart c || c == '*' || c == '@' || c == '.'

/-- Takes off a location path.  A slash alone is the root. -/
def locationPath : Reader Expr
  | '/' :: '/' :: rest => do
      let (steps, rest) ← relativePath nested rest
      return (.path true (.descendantOrSelf :: steps), rest)
  | '/' :: rest =>
      if startsStep (skipSpace rest) then do
        let (steps, rest) ← relativePath nested (skipSpace rest)
        return (.path true steps, rest)
      else .ok (.path true [], skipSpace rest)
  | s => do
      let (steps, rest) ← relativePath nested s
      return (.path false steps, rest)

/-- Takes off arguments with commas between them, at most the given number of them. -/
def argumentsWithin : Nat → Reader (List Expr)
  | 0, s => .ok ([], s)
  | bound + 1, s => do
      let (argument, rest) ← nested s
      match skipSpace rest with
      | ',' :: rest => do
          let (others, rest) ← argumentsWithin bound rest
          return (argument :: others, rest)
      | rest => return ([argument], rest)

/-- Takes off arguments up to the closing parenthesis. -/
def arguments : Reader (List Expr) :=
  fun s =>
    match skipSpace s with
    | ')' :: rest => .ok ([], rest)
    | start => do
        let (arguments, rest) ← argumentsWithin nested (start.length + 1) start
        let rest ← expect ')' rest
        return (arguments, rest)

/-- The call of the function with the given name. -/
def call (word : String) (arguments : List Expr) : Except ParseCause Expr :=
  match CoreFunction.ofName? word with
  | none => .error (.unknownFunction word)
  | some function =>
      match function.call? arguments with
      | some call => .ok call
      | none => .error (.wrongArity function arguments.length)

/-- Takes off a function call. -/
def functionCall : Reader Expr :=
  fun s => do
    let (word, rest) ← name s
    let rest ← expect '(' rest
    let (arguments, rest) ← arguments nested rest
    match call word arguments with
    | .ok call => return (call, rest)
    | .error cause => .error ⟨cause, s⟩

/-- Takes off a parenthesised expression, a literal or a function call. -/
def primary : Reader Expr
  | '(' :: rest => do
      let (inner, rest) ← nested rest
      let rest ← expect ')' rest
      return (inner, rest)
  | '$' :: rest => .error ⟨.variableReference, '$' :: rest⟩
  | s =>
      match s.head? with
      | some c =>
          if c = '"' || c = '\x27' then do
            let (literal, rest) ← textLiteral c s.tail
            return (.literal literal, rest)
          else if c.isDigit || c = '.' then
            let (number, rest) := numberLiteral s
            .ok (.number number, rest)
          else functionCall nested s
      | none => functionCall nested s

/-- Takes off a primary expression with the predicates and steps that follow it. -/
def filterExpr : Reader Expr :=
  fun s => do
    let (first, rest) ← primary nested s
    let (predicates, rest) ← predicates nested rest
    let (steps, rest) ← pathTail nested rest
    if predicates.isEmpty && steps.isEmpty then return (first, rest)
    else return (.filter first predicates steps, rest)

/-- Whether a function call begins here: a name and a parenthesis, unless the name is reserved for
node tests. -/
def startsCall (s : List Char) : Bool :=
  match name s with
  | .error _ => false
  | .ok (word, rest) => (skipSpace rest).head? == some '(' && !isNodeTypeName word

/-- Whether a primary expression begins here. -/
def startsPrimary : List Char → Bool
  | [] => false
  | c :: rest =>
      c == '(' || c == '"' || c == '\x27' || c == '$' || c.isDigit ||
        (c == '.' && rest.head?.any Char.isDigit) || startsCall (c :: rest)

/-- Takes off a location path or a filter expression. -/
def pathExpr : Reader Expr :=
  fun s =>
    match skipSpace s with
    | [] => .error ⟨.expectedExpression, []⟩
    | c :: rest =>
        if startsPrimary (c :: rest) then filterExpr nested (c :: rest)
        else if c == '/' || startsStep (c :: rest) then locationPath nested (c :: rest)
        else .error ⟨.unexpectedChar c, c :: rest⟩

end Nested

/-- The operators between two operands. -/
inductive Operator
  | or
  | and
  | compare (op : Comparison)
  | arithmetic (op : Arithmetic)
  | union
  deriving DecidableEq, Repr

/-- The expression that an operator makes of its operands. -/
def Operator.apply : Operator → Expr → Expr → Expr
  | or => Expr.or
  | and => Expr.and
  | compare op => Expr.compare op
  | arithmetic op => Expr.arithmetic op
  | union => Expr.union

/-- Takes an operator of one precedence off the start of a text. -/
abbrev OperatorReader := List Char → Option (Operator × List Char)

/-- The lowest precedence. -/
def orOperator? : OperatorReader :=
  fun s => (keyword? ['o', 'r'] s).map (Operator.or, ·)

/-- The precedence above `orOperator?`. -/
def andOperator? : OperatorReader :=
  fun s => (keyword? ['a', 'n', 'd'] s).map (Operator.and, ·)

/-- The precedence above `andOperator?`. -/
def equalityOperator? : OperatorReader
  | '!' :: '=' :: rest => some (.compare .notEqual, rest)
  | '=' :: rest => some (.compare .equal, rest)
  | _ => none

/-- The precedence above `equalityOperator?`. -/
def relationalOperator? : OperatorReader
  | '<' :: '=' :: rest => some (.compare .lessOrEqual, rest)
  | '>' :: '=' :: rest => some (.compare .greaterOrEqual, rest)
  | '<' :: rest => some (.compare .less, rest)
  | '>' :: rest => some (.compare .greater, rest)
  | _ => none

/-- The precedence above `relationalOperator?`. -/
def additiveOperator? : OperatorReader
  | '+' :: rest => some (.arithmetic .add, rest)
  | '-' :: rest => some (.arithmetic .subtract, rest)
  | _ => none

/-- The precedence above `additiveOperator?`. -/
def multiplicativeOperator? : OperatorReader
  | '*' :: rest => some (.arithmetic .multiply, rest)
  | s =>
      match keyword? ['d', 'i', 'v'] s with
      | some rest => some (.arithmetic .divide, rest)
      | none => (keyword? ['m', 'o', 'd'] s).map (Operator.arithmetic .modulo, ·)

/-- The highest precedence, above the unary minus. -/
def unionOperator? : OperatorReader
  | '|' :: rest => some (.union, rest)
  | _ => none

/-- Extends a left operand by the operators and operands that follow, at most the given number of
times. -/
def chainWithin (operator? : OperatorReader) (operand : Reader Expr) : Nat → Expr → Reader Expr
  | 0, left, s => .ok (left, s)
  | bound + 1, left, s =>
      match operator? (skipSpace s) with
      | none => .ok (left, skipSpace s)
      | some (operator, rest) => do
          let (right, rest) ← operand rest
          chainWithin operator? operand bound (operator.apply left right) rest

/-- Takes off operands with operators of one precedence between them, grouped to the left. -/
def chain (operator? : OperatorReader) (operand : Reader Expr) : Reader Expr :=
  fun s => do
    let (first, rest) ← operand s
    chainWithin operator? operand (rest.length + 1) first rest

/-- Takes off an expression whose highest operands are read by `unary`. -/
def binaryLevels (unary : Reader Expr) : Reader Expr :=
  chain orOperator? <| chain andOperator? <| chain equalityOperator? <|
    chain relationalOperator? <| chain additiveOperator? <| chain multiplicativeOperator? unary

/-- Takes off a union, or a minus sign and what it negates. -/
def signed (operand nested : Reader Expr) : Reader Expr :=
  fun s =>
    match skipSpace s with
    | '-' :: rest => do
        let (inner, rest) ← operand rest
        return (.negate inner, rest)
    | rest => chain unionOperator? (pathExpr nested) rest

/-- The reader of what is nested beyond the limit. -/
def tooDeep : Reader Expr :=
  fun s => .error ⟨.nestedTooDeeply, s⟩

/-- Takes off a union with its minus signs, when `levels` more levels of nesting are allowed. -/
def unary : Nat → Reader Expr
  | 0, s => signed tooDeep tooDeep s
  | levels + 1, s => signed (unary levels) (binaryLevels (unary levels)) s

/-- Takes off an expression, when `levels` more levels of nesting are allowed. -/
def expression : Nat → Reader Expr
  | 0, s => tooDeep s
  | levels + 1, s => binaryLevels (unary levels) s

/-- How many levels of nesting are allowed, the whole expression being the first. -/
def maxNesting : Nat := 64

/-- Reads a whole text as an expression. -/
def whole (s : List Char) : Except Fault Expr := do
  let (expr, rest) ← expression maxNesting s
  match skipSpace rest with
  | [] => return expr
  | c :: rest => .error ⟨.unexpectedChar c, c :: rest⟩

end Parse

/-- Reads an expression. -/
def parse (text : String) : Except ParseError Expr :=
  match Parse.whole text.toList with
  | .ok expr => .ok expr
  | .error fault =>
      .error ⟨fault.cause, Text.byteLength text.toList - Text.byteLength fault.rest⟩

/-- A query that is ready to be evaluated: an expression together with the text that it was read
from. -/
structure Query where
  source : String
  expr : Expr

/-- Compiles a text. -/
def Query.compile (text : String) : Except ParseError Query := do
  return ⟨text, ← parse text⟩

end CborPath
