import CborPath.Navigator
import CborPath.Query.Expr

/-!
# Axes and node tests

The nodes that a step finds from its context node.  They come in proximity order: document order
for the axes that lead on, and from the context node outwards for those that lead back.
-/

namespace CborPath

namespace Navigator

variable {P : Type} (nav : Navigator P)

/-- The positions after a position that are not below it: the later siblings of the position and of
those above it, with all below them. -/
def following (p : P) : List P :=
  (p :: nav.ancestors p).flatMap fun q => (nav.followingSiblings q).flatMap nav.subtree

/-- The positions before a position that are not above it, nearest first: the earlier siblings of
the position and of those above it, with all below them. -/
def preceding (p : P) : List P :=
  (p :: nav.ancestors p).flatMap fun q =>
    (nav.precedingSiblings q).flatMap fun sibling => (nav.subtree sibling).reverse

/-- The positions on an axis, in proximity order.  No node has attributes. -/
def axisNodes (p : P) : Axis → List P
  | .child => nav.children p
  | .descendant => nav.descendants p
  | .descendantOrSelf => nav.subtree p
  | .parent => (nav.parent? p).toList
  | .ancestor => nav.ancestors p
  | .ancestorOrSelf => p :: nav.ancestors p
  | .followingSibling => nav.followingSiblings p
  | .precedingSibling => nav.precedingSiblings p
  | .following => nav.following p
  | .preceding => nav.preceding p
  | .self => [p]
  | .attributes => []

/-- Whether a position passes a node test. -/
def passes (p : P) : NodeTest → Bool
  | .named name => nav.nodeType p = .element && nav.localName p = name
  | .anyElement => nav.nodeType p = .element
  | .anyNode => true
  | .anyText => nav.nodeType p = .text

/-- A list without the elements that stand directly after one of the same position. -/
def dropRepeats : List P → List P
  | [] => []
  | p :: ps =>
      match dropRepeats ps with
      | [] => [p]
      | q :: qs => if nav.same p q then p :: qs else p :: q :: qs

/-- Sorts positions into document order and leaves one of each. -/
def documentOrder (ps : List P) : List P :=
  nav.dropRepeats (ps.mergeSort fun p q => (nav.order p q).isLE)

end Navigator

end CborPath
