import CborPath.Query.Axis
import CborPath.Query.Compare
import CborPath.Text.Search

/-!
# Evaluation

Expressions are evaluated at a context: a node, its position in the list that is being looked
through, and the size of that list.  The only failure is an expression that is not a node-set where
one is needed.

A step collects, for each node of a set in turn, the nodes on its axis that pass its test and its
predicates, and sorts the whole into document order without repetitions.  From a single node the
nodes come in order already and are only turned round if the axis leads back.
-/

namespace CborPath

/-- The one way in which evaluation fails: a node-set was needed, and something else was found. -/
structure EvalError where
  found : AnswerType
  deriving DecidableEq, Repr

/-- The wording of a failed evaluation. -/
def EvalError.message (e : EvalError) : String :=
  "expected node-set, got " ++ e.found.name

/-- The positions of a node-set. -/
def Answer.nodes? {P : Type} : Answer P → Except EvalError (List P)
  | nodes positions => .ok positions
  | other => .error ⟨other.type⟩

/-- Where an expression is evaluated. -/
structure Context (P : Type) where
  node : P
  position : Nat
  size : Nat

/-- The elements of a list that pass a test which is also told their numbers, counted up from the
given one. -/
def keepNumbered {ε α : Type} (test : Nat → α → Except ε Bool) : Nat → List α → Except ε (List α)
  | _, [] => .ok []
  | number, x :: xs => do
      let keep ← test number x
      let others ← keepNumbered test (number + 1) xs
      return if keep then x :: others else others

/-- Applies a function to each element of a list, and joins the lists that it gives. -/
def joinMap {ε α β : Type} (f : α → Except ε (List β)) : List α → Except ε (List β)
  | [] => .ok []
  | x :: xs => do
      let first ← f x
      let others ← joinMap f xs
      return first ++ others

namespace Arithmetic

/-- The result of an arithmetic operator. -/
def apply : Arithmetic → Binary64 → Binary64 → Binary64
  | add => Binary64.add
  | subtract => Binary64.sub
  | multiply => Binary64.mul
  | divide => Binary64.div
  | modulo => Binary64.rem

end Arithmetic

section Functions

variable {P : Type} (nav : Navigator P)

/-- The value of a function without arguments. -/
def NullaryFunction.apply (context : Context P) : NullaryFunction → Answer P
  | last => .number (Binary64.ofNat context.size)
  | position => .number (Binary64.ofNat context.position)
  | alwaysTrue => .boolean true
  | alwaysFalse => .boolean false

/-- The value of a function of one argument. -/
def UnaryFunction.apply (f : UnaryFunction) (argument : Answer P) :
    Except EvalError (Answer P) :=
  match f with
  | count => return .number (Binary64.ofNat (← argument.nodes?).length)
  | sum => return .number (Binary64.sum ((← argument.nodes?).map nav.number))
  | not => .ok (.boolean !argument.toBoolean)
  | boolean => .ok (.boolean argument.toBoolean)
  | floor => .ok (.number (argument.toNumber nav).floor)
  | ceiling => .ok (.number (argument.toNumber nav).ceil)
  | round => .ok (.number (argument.toNumber nav).round)

/-- The name of a position; only elements have one. -/
def Navigator.elementName (p : P) : String :=
  if nav.nodeType p = .element then nav.localName p else ""

/-- The number of characters of a text. -/
def textLength (s : String) : Binary64 :=
  Binary64.ofNat s.toList.length

/-- A text with its white space normalized. -/
def normalizedText (s : String) : String :=
  String.ofList (Text.normalizeSpace s.toList)

/-- The value of a function at the context node. -/
def NodeFunction.applyToContext (p : P) : NodeFunction → Answer P
  | name | localName => .text (nav.elementName p)
  | string => .text (nav.stringValue p)
  | stringLength => .number (textLength (nav.stringValue p))
  | normalizeSpace => .text (normalizedText (nav.stringValue p))
  | number => .number (nav.number p)

/-- The value of a function of one argument that could have been left out. -/
def NodeFunction.apply (f : NodeFunction) (argument : Answer P) : Except EvalError (Answer P) :=
  match f with
  | name | localName =>
      return .text (((← argument.nodes?).head?.map nav.elementName).getD "")
  | string => .ok (.text (argument.toText nav))
  | stringLength => .ok (.number (textLength (argument.toText nav)))
  | normalizeSpace => .ok (.text (normalizedText (argument.toText nav)))
  | number => .ok (.number (argument.toNumber nav))

/-- The value of a function of two texts. -/
def BinaryFunction.apply (f : BinaryFunction) (s t : String) : Answer P :=
  match f with
  | contains => .boolean (Text.contains s.toList t.toList)
  | startsWith => .boolean (Text.startsWith s.toList t.toList)
  | endsWith => .boolean (Text.endsWith s.toList t.toList)
  | substringBefore => .text (String.ofList (Text.before s.toList t.toList))
  | substringAfter => .text (String.ofList (Text.after s.toList t.toList))

/-- The characters of a text whose numbers, counted from one, lie between a first one and one that
is no longer meant. -/
def substringBetween (s : String) (start stop : Binary64) : String :=
  let numbered := s.toList.zipIdx 1
  String.ofList ((numbered.filter fun (_, number) =>
    start.atMost (Binary64.ofNat number) && (Binary64.ofNat number).less stop).map Prod.fst)

/-- Whether a predicate's answer keeps a node.  A number keeps the node at that position. -/
def Answer.keeps (position : Nat) : Answer P → Bool
  | number n => n.equals (Binary64.ofNat position)
  | other => other.toBoolean

end Functions

section Evaluation

variable {P : Type} (nav : Navigator P)

mutual

/-- The value of an expression. -/
def Expr.eval (context : Context P) : Expr → Except EvalError (Answer P)
  | .path absolute steps => do
      let start := if absolute then nav.root context.node else context.node
      return .nodes (← evalSteps steps [start])
  | .filter primary predicates steps => do
      let candidates ← (← primary.eval context).nodes?
      let kept ← evalPredicates predicates candidates
      return .nodes (← evalSteps steps kept)
  | .union left right => do
      let these ← (← left.eval context).nodes?
      let those ← (← right.eval context).nodes?
      return .nodes (nav.documentOrder (these ++ those))
  | .or left right => do
      if (← left.eval context).toBoolean then return .boolean true
      else return .boolean (← right.eval context).toBoolean
  | .and left right => do
      if (← left.eval context).toBoolean then return .boolean (← right.eval context).toBoolean
      else return .boolean false
  | .compare op left right => do
      let x ← left.eval context
      let y ← right.eval context
      return .boolean (Answer.compare nav op x y)
  | .arithmetic op left right => do
      let x ← left.eval context
      let y ← right.eval context
      return .number (op.apply (x.toNumber nav) (y.toNumber nav))
  | .negate operand => do
      return .number ((← operand.eval context).toNumber nav).neg
  | .number n => .ok (.number n)
  | .literal s => .ok (.text s)
  | .nullary f => .ok (f.apply context)
  | .unary f argument => do
      f.apply nav (← argument.eval context)
  | .ofContext f => .ok (f.applyToContext nav context.node)
  | .ofArgument f argument => do
      f.apply nav (← argument.eval context)
  | .binary f first second => do
      let s := (← first.eval context).toText nav
      let t := (← second.eval context).toText nav
      return f.apply s t
  | .substringFrom text start => do
      let s := (← text.eval context).toText nav
      let first := ((← start.eval context).toNumber nav).round
      return .text (substringBetween s first (.infinite false))
  | .substring text start length => do
      let s := (← text.eval context).toText nav
      let first := ((← start.eval context).toNumber nav).round
      let count := ((← length.eval context).toNumber nav).round
      return .text (substringBetween s first (first.add count))
  | .translate text source target => do
      let s := (← text.eval context).toText nav
      let these := (← source.eval context).toText nav
      let those := (← target.eval context).toText nav
      return .text (String.ofList (Text.translate s.toList these.toList those.toList))
  | .concat first second others => do
      let s := (← first.eval context).toText nav
      let t := (← second.eval context).toText nav
      return .text (s ++ t ++ (← evalTexts context others))

/-- The texts of several expressions, one after the other. -/
def evalTexts (context : Context P) : List Expr → Except EvalError String
  | [] => .ok ""
  | expr :: rest => do
      let s := (← expr.eval context).toText nav
      return s ++ (← evalTexts context rest)

/-- The nodes of a list that pass every predicate in turn.  Each predicate numbers them anew. -/
def evalPredicates : List Expr → List P → Except EvalError (List P)
  | [], nodes => .ok nodes
  | predicate :: rest, nodes => do
      let size := nodes.length
      let kept ← keepNumbered
        (fun position node =>
          return (← predicate.eval ⟨node, position, size⟩).keeps position) 1 nodes
      evalPredicates rest kept

/-- The nodes that a step selects from one node, in document order. -/
def Step.select : Step → P → Except EvalError (List P)
  | .mk axis test predicates, node => do
      let candidates := (nav.axisNodes node axis).filter (nav.passes · test)
      let selected ← evalPredicates predicates candidates
      return if axis.isReverse then selected.reverse else selected

/-- The nodes that steps lead to from a set of nodes. -/
def evalSteps : List Step → List P → Except EvalError (List P)
  | [], nodes => .ok nodes
  | step :: rest, nodes => do
      let found ← joinMap step.select nodes
      evalSteps rest (if nodes.length = 1 then found else nav.documentOrder found)

end

/-- The value of an expression at a node on its own. -/
def Expr.evaluate (expr : Expr) (node : P) : Except EvalError (Answer P) :=
  expr.eval nav ⟨node, 1, 1⟩

/-- The nodes of an expression at a node on its own. -/
def Expr.select (expr : Expr) (node : P) : Except EvalError (List P) := do
  (← expr.evaluate nav node).nodes?

end Evaluation

end CborPath
