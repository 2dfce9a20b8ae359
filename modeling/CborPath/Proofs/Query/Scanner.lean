import CborPath.Document.Atomic
import CborPath.Proofs.Text.Places
import CborPath.Query.Parse

/-!
# Scanning by a cursor

Expressions can be read from a text that never changes, with a cursor that says after how many bytes
the reading stands.  The cursor goes on by the size of a character, by fixed numbers of bytes and by the
size of a word, it is set back after looking ahead, and pieces of the text are cut out between two of
its places.

A scan halts at once where the cursor would leave the places between characters, or where a piece would
be cut out that does not begin and end at such places.  It also halts where a loop has used up its
rounds, and wherever the reading holds something for impossible.  Only a refused text is an answer among
all these.
-/

namespace CborPath

/-- Between how many arguments a function takes, if there is an upper limit. -/
def CoreFunction.arity : CoreFunction → Nat × Option Nat
  | nullary _ => (0, some 0)
  | unary _ => (1, some 1)
  | optional _ => (0, some 1)
  | binary _ => (2, some 2)
  | substring => (2, some 3)
  | translate => (3, some 3)
  | concat => (2, none)

/-- Why a scan halts without an expression. -/
inductive Halt
  | refused (error : ParseError)
  | outOfText (place : Nat)
  | roundsUsedUp
  | noQuote (place : Nat)
  | noNumber (place : Nat)
  | unknownCall (word : String)
  | missingArgument (place : Nat)
  | notAtEnd (place : Nat)
  deriving DecidableEq, Repr

/-- A scan moves the cursor. -/
abbrev Scan := StateT Nat (Except Halt)

namespace Scan

open Parse (isNameStart isNameChar Operator)

/-- Halts at a text that is not an expression. -/
def refuse {α : Type} (cause : ParseCause) (place : Nat) : Scan α :=
  throw (.refused ⟨cause, place⟩)

section Call

/-- The next argument. -/
def argument (place : Nat) : StateT (List Expr) (Except Halt) Expr := do
  match ← get with
  | [] => throw (.missingArgument place)
  | argument :: others => do
      set others
      return argument

/-- The next argument, if there is one. -/
def argument? : StateT (List Expr) (Except Halt) (Option Expr) := do
  match ← get with
  | [] => return none
  | argument :: others => do
      set others
      return some argument

/-- The call of a function of one argument that may be left out. -/
def optionalCall (function : NodeFunction) : StateT (List Expr) (Except Halt) Expr := do
  match ← argument? with
  | some argument => return .ofArgument function argument
  | none => return .ofContext function

/-- The call of a function of two arguments. -/
def binaryCall (function : BinaryFunction) (place : Nat) : StateT (List Expr) (Except Halt) Expr := do
  let first ← argument place
  let second ← argument place
  return .binary function first second

/-- The call of the function with a name, which takes its arguments one by one. -/
def construct (word : String) (place : Nat) : StateT (List Expr) (Except Halt) Expr :=
  match word with
  | "last" => return .nullary .last
  | "position" => return .nullary .position
  | "true" => return .nullary .alwaysTrue
  | "false" => return .nullary .alwaysFalse
  | "count" => return .unary .count (← argument place)
  | "not" => return .unary .not (← argument place)
  | "boolean" => return .unary .boolean (← argument place)
  | "sum" => return .unary .sum (← argument place)
  | "floor" => return .unary .floor (← argument place)
  | "ceiling" => return .unary .ceiling (← argument place)
  | "round" => return .unary .round (← argument place)
  | "name" => optionalCall .name
  | "local-name" => optionalCall .localName
  | "string" => optionalCall .string
  | "string-length" => optionalCall .stringLength
  | "normalize-space" => optionalCall .normalizeSpace
  | "number" => optionalCall .number
  | "contains" => binaryCall .contains place
  | "starts-with" => binaryCall .startsWith place
  | "ends-with" => binaryCall .endsWith place
  | "substring-before" => binaryCall .substringBefore place
  | "substring-after" => binaryCall .substringAfter place
  | "substring" => do
      let text ← argument place
      let start ← argument place
      match ← argument? with
      | some length => return .substring text start length
      | none => return .substringFrom text start
  | "translate" => do
      let text ← argument place
      let source ← argument place
      return .translate text source (← argument place)
  | "concat" => do
      let first ← argument place
      let second ← argument place
      return .concat first second (← get)
  | _ => throw (.unknownCall word)

/-- The call of the function with a name, if the name is known and the number of arguments fits. -/
def resolve (word : String) (arguments : List Expr) (place : Nat) : Except Halt Expr :=
  match CoreFunction.ofName? word with
  | none => .error (.refused ⟨.unknownFunction word, place⟩)
  | some function =>
      if arguments.length < function.arity.1 || function.arity.2.any (· < arguments.length) then
        .error (.refused ⟨.wrongArity function arguments.length, place⟩)
      else (construct word place).run' arguments

end Call

variable (text : List Char)

section Cursor

/-- The characters from a place on. -/
def charactersFrom (place : Nat) : Scan (List Char) :=
  match Text.charactersFrom? place text with
  | some s => return s
  | none => throw (.outOfText place)

/-- The characters between two places. -/
def charactersBetween (start stop : Nat) : Scan (List Char) :=
  match Text.charactersBetween? start stop text with
  | some s => return s
  | none => throw (.outOfText stop)

/-- Moves the cursor to a place. -/
def moveTo (place : Nat) : Scan Unit := do
  let _ ← charactersFrom text place
  set place

/-- Moves the cursor on by some bytes. -/
def advance (count : Nat) : Scan Unit := do
  moveTo text ((← get) + count)

/-- The characters from the cursor on. -/
def remaining : Scan (List Char) := do
  charactersFrom text (← get)

/-- The character at the cursor. -/
def peek : Scan (Option Char) := do
  return (← remaining text).head?

/-- The character after that at the cursor. -/
def peekSecond : Scan (Option Char) := do
  return (← remaining text).tail.head?

/-- The characters in the next bytes, if some characters fill these bytes, or all that are left. -/
def peekBytes (count : Nat) : Scan (List Char) := do
  let place ← get
  let stop := min (place + count) (Text.byteLength text)
  return (Text.charactersBetween? place stop text).getD []

/-- Takes the character at the cursor. -/
def next : Scan (Option Char) := do
  match ← peek text with
  | none => return none
  | some c => do
      advance text c.utf8Size
      return some c

/-- Takes characters as long as they pass a test, in at most the given number of rounds. -/
def skipWithin (passes : Char → Bool) : Nat → Scan Unit
  | 0 => throw .roundsUsedUp
  | bound + 1 => do
      match ← peek text with
      | none => return ()
      | some c =>
          if passes c then do
            let _ ← next text
            skipWithin passes bound
          else return ()

/-- Takes characters as long as they pass a test. -/
def skip (passes : Char → Bool) : Scan Unit :=
  skipWithin text passes (text.length + 1)

/-- Takes white space. -/
def skipSpace : Scan Unit :=
  skip text Text.isSpace

/-- Does something and sets the cursor back. -/
def lookahead {α : Type} (scan : Scan α) : Scan α := do
  let place ← get
  let x ← scan
  set place
  return x

end Cursor

section Lexeme

/-- Takes one given character, after white space. -/
def expect (expected : Char) : Scan Unit := do
  skipSpace text
  match ← peek text with
  | some c =>
      if c = expected then do
        let _ ← next text
        return ()
      else refuse (.expectedChar expected (some c)) (← get)
  | none => refuse (.expectedChar expected none) (← get)

/-- Whether a word is at the cursor that is not the start of a longer name. -/
def atWord (word : List Char) : Scan Bool := do
  let place ← get
  if word.isPrefixOf (← charactersFrom text place) then do
    let after ← charactersFrom text (place + Text.byteLength word)
    return !after.head?.any isNameChar
  else return false

/-- Takes a name. -/
def name : Scan String := do
  let start ← get
  match ← peek text with
  | some c =>
      if isNameStart c then do
        let _ ← next text
        skip text isNameChar
        return String.ofList (← charactersBetween text start (← get))
      else refuse (.expectedName (some c)) (← get)
  | none => refuse (.expectedName none) (← get)

/-- Takes a name and white space, and gives the character after them.  There is none if there is no
name. -/
def peekPastName : Scan (Option Char) := fun place =>
  match (name text).run place with
  | .ok (_, place) => (do skipSpace text; peek text).run place
  | .error (.refused _) => .ok (none, place)
  | .error halt => .error halt

/-- The character after the name at the cursor and white space. -/
def charAfterName : Scan (Option Char) := do
  let start ← get
  let found ← peekPastName text
  moveTo text start
  return found

/-- Takes a point and the digits after it, if there is a point. -/
def fraction : Scan Unit := do
  if (← peek text) = some '.' then do
    let _ ← next text
    skip text Char.isDigit
  else return ()

/-- Takes a number: digits with at most one point among or around them. -/
def numberLiteral : Scan Binary64 := do
  let start ← get
  skip text Char.isDigit
  fraction text
  let digits ← charactersBetween text start (← get)
  if isDecimalText digits then return .ofDecimalText false digits
  else throw (.noNumber start)

/-- Takes characters up to a quote and the quote, in at most the given number of rounds. -/
def closeWithin (quote : Char) (start : Nat) : Nat → Scan Unit
  | 0 => throw .roundsUsedUp
  | bound + 1 => do
      match ← next text with
      | some c => if c = quote then return () else closeWithin quote start bound
      | none => refuse .unterminatedString start

/-- Takes a text literal. -/
def textLiteral : Scan String := do
  let start ← get
  match ← next text with
  | some quote =>
      if quote = '"' || quote = '\x27' then do
        let body ← get
        closeWithin text quote start (text.length + 1)
        return String.ofList (← charactersBetween text body ((← get) - quote.utf8Size))
      else throw (.noQuote start)
  | none => throw (.noQuote start)

/-- Takes an axis.  Without one, the step looks at children. -/
def axis : Scan Axis := do
  if (← peek text) = some '@' then do
    let _ ← next text
    return .attributes
  else do
    let start ← get
    if (← peek text).any isNameStart then do
      let word ← name text
      skipSpace text
      if (← peekBytes text 2) = [':', ':'] then do
        advance text 2
        match Axis.ofName? word with
        | some axis => return axis
        | none => refuse (.unknownAxis word) start
      else do
        moveTo text start
        return .child
    else return .child

/-- Takes a node test. -/
def nodeTest : Scan NodeTest := do
  skipSpace text
  if (← peek text) = some '*' then do
    let _ ← next text
    return .anyElement
  else do
    let start ← get
    let word ← name text
    if (← peek text) = some ':' && (← peekSecond text) ≠ some ':' then
      refuse .namespacePrefix (← get)
    else if (← lookahead (do skipSpace text; peek text)) ≠ some '(' then return .named word
    else
      match Parse.nodeType word with
      | .error cause => refuse cause start
      | .ok test => do
          expect text '('
          expect text ')'
          return test

end Lexeme

section Nested

variable (nested : Scan Expr)

/-- Takes predicates, in at most the given number of rounds. -/
def predicatesWithin : Nat → Scan (List Expr)
  | 0 => throw .roundsUsedUp
  | bound + 1 => do
      skipSpace text
      if (← peek text) = some '[' then do
        let _ ← next text
        let predicate ← nested
        expect text ']'
        return predicate :: (← predicatesWithin bound)
      else return []

/-- Takes all predicates that follow. -/
def predicates : Scan (List Expr) :=
  predicatesWithin text nested (text.length + 1)

/-- Takes a step. -/
def step : Scan Step := do
  skipSpace text
  if (← peekBytes text 2) = ['.', '.'] then do
    advance text 2
    return .parent
  else if (← peek text) = some '.' then do
    let _ ← next text
    return .self
  else do
    let axis ← axis text
    let test ← nodeTest text
    return .mk axis test (← predicates text nested)

/-- Takes steps that are led by slashes, in at most the given number of rounds. -/
def pathTailWithin : Nat → Scan (List Step)
  | 0 => throw .roundsUsedUp
  | bound + 1 => do
      skipSpace text
      if (← peekBytes text 2) = ['/', '/'] then do
        advance text 2
        let following ← step text nested
        return .descendantOrSelf :: following :: (← pathTailWithin bound)
      else if (← peek text) = some '/' then do
        let _ ← next text
        let following ← step text nested
        return following :: (← pathTailWithin bound)
      else return []

/-- Takes all steps that follow. -/
def pathTail : Scan (List Step) :=
  pathTailWithin text nested (text.length + 1)

/-- Takes one or more steps. -/
def relativePath : Scan (List Step) := do
  let first ← step text nested
  return first :: (← pathTail text nested)

/-- Takes a location path. -/
def locationPath : Scan Expr := do
  if (← peekBytes text 2) = ['/', '/'] then do
    advance text 2
    return .path true (.descendantOrSelf :: (← relativePath text nested))
  else if (← peek text) = some '/' then do
    let _ ← next text
    skipSpace text
    if (← peek text).any fun c => isNameStart c || c == '*' || c == '@' || c == '.' then
      return .path true (← relativePath text nested)
    else return .path true []
  else return .path false (← relativePath text nested)

/-- Takes arguments with commas between them, in at most the given number of rounds. -/
def argumentsWithin : Nat → Scan (List Expr)
  | 0 => throw .roundsUsedUp
  | bound + 1 => do
      let argument ← nested
      skipSpace text
      if (← peek text) = some ',' then do
        let _ ← next text
        return argument :: (← argumentsWithin bound)
      else return [argument]

/-- Takes arguments up to the closing parenthesis. -/
def arguments : Scan (List Expr) := do
  skipSpace text
  if (← peek text) = some ')' then do
    let _ ← next text
    return []
  else do
    let arguments ← argumentsWithin text nested (text.length + 1)
    expect text ')'
    return arguments

/-- Takes a function call. -/
def functionCall : Scan Expr := do
  let start ← get
  let word ← name text
  expect text '('
  let arguments ← arguments text nested
  resolve word arguments start

/-- Takes a parenthesised expression, a literal or a function call. -/
def primary : Scan Expr := do
  skipSpace text
  match ← peek text with
  | none => refuse .expectedExpression (← get)
  | some c =>
      if c = '(' then do
        let _ ← next text
        let inner ← nested
        expect text ')'
        return inner
      else if c = '"' || c = '\x27' then return .literal (← textLiteral text)
      else if c.isDigit || c = '.' then return .number (← numberLiteral text)
      else if c = '$' then refuse .variableReference (← get)
      else if isNameStart c then functionCall text nested
      else refuse (.unexpectedChar c) (← get)

/-- Takes a primary expression with the predicates and steps that follow it. -/
def filterExpr : Scan Expr := do
  let first ← primary text nested
  let predicates ← predicates text nested
  let steps ← pathTail text nested
  if predicates.isEmpty && steps.isEmpty then return first
  else return .filter first predicates steps

/-- Takes a location path or a filter expression. -/
def pathExpr : Scan Expr := do
  skipSpace text
  match ← peek text with
  | none => refuse .expectedExpression (← get)
  | some c =>
      if c = '/' then locationPath text nested
      else if c = '(' || c = '"' || c = '\x27' || c = '$' then filterExpr text nested
      else if c.isDigit then filterExpr text nested
      else if c = '.' then
        if (← peekSecond text).any Char.isDigit then filterExpr text nested
        else locationPath text nested
      else if isNameStart c then do
        let start ← get
        let word ← name text
        moveTo text start
        if (← charAfterName text) = some '(' && !Parse.isNodeTypeName word then
          filterExpr text nested
        else locationPath text nested
      else if c = '*' || c = '@' then locationPath text nested
      else refuse (.unexpectedChar c) (← get)

end Nested

section Operator

/-- Takes the operator that is spelled by a word. -/
def wordOperator? (word : List Char) (operator : Operator) : Scan (Option Operator) := do
  if ← atWord text word then do
    advance text (Text.byteLength word)
    return some operator
  else return none

def orOperator? : Scan (Option Operator) :=
  wordOperator? text ['o', 'r'] .or

def andOperator? : Scan (Option Operator) :=
  wordOperator? text ['a', 'n', 'd'] .and

def equalityOperator? : Scan (Option Operator) := do
  if (← peekBytes text 2) = ['!', '='] then do
    advance text 2
    return some (.compare .notEqual)
  else if (← peek text) = some '=' then do
    let _ ← next text
    return some (.compare .equal)
  else return none

def relationalOperator? : Scan (Option Operator) := do
  let rest ← remaining text
  if ['<', '='].isPrefixOf rest then do
    advance text 2
    return some (.compare .lessOrEqual)
  else if ['>', '='].isPrefixOf rest then do
    advance text 2
    return some (.compare .greaterOrEqual)
  else if ['<'].isPrefixOf rest then do
    advance text 1
    return some (.compare .less)
  else if ['>'].isPrefixOf rest then do
    advance text 1
    return some (.compare .greater)
  else return none

def additiveOperator? : Scan (Option Operator) := do
  let c ← peek text
  if c = some '+' then do
    let _ ← next text
    return some (.arithmetic .add)
  else if c = some '-' then do
    let _ ← next text
    return some (.arithmetic .subtract)
  else return none

def multiplicativeOperator? : Scan (Option Operator) := do
  if (← peek text) = some '*' then do
    let _ ← next text
    return some (.arithmetic .multiply)
  else
    match ← wordOperator? text ['d', 'i', 'v'] (.arithmetic .divide) with
    | some operator => return some operator
    | none => wordOperator? text ['m', 'o', 'd'] (.arithmetic .modulo)

def unionOperator? : Scan (Option Operator) := do
  if (← peek text) = some '|' then do
    let _ ← next text
    return some .union
  else return none

variable (operator? : Scan (Option Operator)) (operand nested : Scan Expr)

/-- Extends a left operand by the operators and operands that follow, in at most the given number of
rounds. -/
def chainWithin : Nat → Expr → Scan Expr
  | 0, _ => throw .roundsUsedUp
  | bound + 1, left => do
      skipSpace text
      match ← operator? with
      | none => return left
      | some operator => do
          let right ← operand
          chainWithin bound (operator.apply left right)

/-- Takes operands with operators of one precedence between them. -/
def chain : Scan Expr := do
  let first ← operand
  chainWithin text operator? operand (text.length + 1) first

/-- Takes an expression whose highest operands are taken by `unary`. -/
def binaryLevels (unary : Scan Expr) : Scan Expr :=
  chain text (orOperator? text) <| chain text (andOperator? text) <|
    chain text (equalityOperator? text) <| chain text (relationalOperator? text) <|
    chain text (additiveOperator? text) <| chain text (multiplicativeOperator? text) unary

/-- Takes a union, or a minus sign and what it negates. -/
def signed : Scan Expr := do
  skipSpace text
  if (← peek text) = some '-' then do
    let _ ← next text
    return .negate (← operand)
  else chain text (unionOperator? text) (pathExpr text nested)

/-- Refuses what is nested beyond the limit. -/
def tooDeep : Scan Expr := do
  refuse .nestedTooDeeply (← get)

/-- Takes a union with its minus signs, when `levels` more levels of nesting are allowed. -/
def unary : Nat → Scan Expr
  | 0 => signed text tooDeep tooDeep
  | levels + 1 => signed text (unary levels) (binaryLevels text (unary levels))

/-- Takes an expression, when `levels` more levels of nesting are allowed. -/
def expression : Nat → Scan Expr
  | 0 => tooDeep
  | levels + 1 => binaryLevels text (unary text levels)

/-- Takes a whole text as an expression. -/
def whole : Scan Expr := do
  let expr ← expression text Parse.maxNesting
  skipSpace text
  match ← peek text with
  | some c => refuse (.unexpectedChar c) (← get)
  | none =>
      if Text.byteLength text ≤ (← get) then return expr
      else throw (.notAtEnd (← get))

end Operator

end Scan

/-- Scans a text from its start.  With an expression comes the place where the cursor ends. -/
def scan (text : String) : Except Halt (Expr × Nat) :=
  (Scan.whole text.toList).run 0

end CborPath
