import CborPath.Document.Atomic
import CborPath.Traversal
import CborPath.Tree.Basic

/-!
# Navigation

Queries see a document only through a `Navigator`: what stands at a position, the moves from one
position to its neighbours, and two comparisons of positions.  Any linked structure that offers them
can be queried.

The order of two positions can be found from the moves alone, by `walkOrder`: it compares the paths
that lead from the root to them.  A navigator may supply a faster order of its own.
-/

namespace CborPath

/-- What may stand at a position. -/
inductive NodeType
  | root
  | element
  | text
  deriving DecidableEq, Repr

/-- A way to move about a document and to look at it.  `P` is the type of positions. -/
structure Navigator (P : Type) where
  nodeType : P → NodeType
  localName : P → String
  /-- All text at or below a position. -/
  stringValue : P → String
  /-- The atomic value of a position, if it has one of its own. -/
  typedValue : P → Option Atomic
  root : P → P
  parent? : P → Option P
  firstChild? : P → Option P
  next? : P → Option P
  previous? : P → Option P
  same : P → P → Bool
  order : P → P → Ordering
  /-- At least the number of moves that any repeated move from a position can make. -/
  bound : P → Nat

namespace Navigator

variable {P : Type} (nav : Navigator P)

/-- The positions above a position, nearest first. -/
def ancestors (p : P) : List P :=
  repeatMove nav.parent? (nav.bound p) p

/-- The later siblings of a position, nearest first. -/
def followingSiblings (p : P) : List P :=
  repeatMove nav.next? (nav.bound p) p

/-- The earlier siblings of a position, nearest first. -/
def precedingSiblings (p : P) : List P :=
  repeatMove nav.previous? (nav.bound p) p

/-- The positions directly below a position, in order. -/
def children (p : P) : List P :=
  match nav.firstChild? p with
  | none => []
  | some child => child :: repeatMove nav.next? (nav.bound p) child

/-- All positions below a position, each before those below it. -/
def descendants (p : P) : List P :=
  descend nav.children (nav.bound p) p

/-- A position and all those below it. -/
def subtree (p : P) : List P :=
  p :: nav.descendants p

/-- The path from the root to a position, both included. -/
def pathFromRoot (p : P) : List P :=
  (p :: nav.ancestors p).reverse

/-- Compares two positions by the paths that lead to them.  Where the paths part, the order is that
of the siblings; a path that is the start of the other comes first. -/
def comparePaths : List P → List P → Ordering
  | [], _ => .lt
  | _ :: _, [] => .gt
  | p :: ps, q :: qs =>
      if nav.same p q then comparePaths ps qs
      else if (nav.followingSiblings p).any fun sibling => nav.same sibling q then .lt
      else .gt

/-- The order of two positions, found by moves alone. -/
def walkOrder (p q : P) : Ordering :=
  if nav.same p q then .eq
  else nav.comparePaths (nav.pathFromRoot p) (nav.pathFromRoot q)

end Navigator

/-- What a kind of node is to a navigator. -/
def NodeKind.nodeType : NodeKind → NodeType
  | document => .root
  | element => .element
  | text => .text

namespace Tree

/-- Navigation in a tree.  Nodes count by the scalars they hold, and their places in the array give
their order. -/
def navigator (t : Tree) : Navigator NodeId where
  nodeType id := (t.node id).kind.nodeType
  localName id := (t.node id).name
  stringValue := t.innerText
  typedValue id := (t.content? id).bind Scalar.toAtomic?
  root _ := root
  parent? id := (t.node id).parent
  firstChild? id := (t.node id).firstChild
  next? id := (t.node id).nextSibling
  previous? id := (t.node id).previousSibling
  same a b := a == b
  order a b := compare a b
  bound _ := t.size

/-- Navigation in which nodes count by their text alone, and the order is found by moves. -/
def plainNavigator (t : Tree) : Navigator NodeId :=
  { t.navigator with typedValue := fun _ => none, order := t.navigator.walkOrder }

end Tree

end CborPath
