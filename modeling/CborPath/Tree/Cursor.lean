import CborPath.Navigator

/-!
# Cursors

A cursor stands on one node of one of several documents, remembers where it was placed first, and
moves along the links of its tree.  Documents are told apart by a number, so that equal trees of
different documents have no position in common.  The order of cursors looks at the places of their
nodes alone, even across documents.
-/

namespace CborPath

/-- A position that can move, with the place that it started from. -/
structure Cursor where
  document : Nat
  tree : Tree
  current : NodeId
  origin : NodeId

namespace Cursor

/-- A cursor placed on a node of a document. -/
def place (document : Nat) (tree : Tree) (node : NodeId) : Cursor :=
  ⟨document, tree, node, node⟩

/-- The cursor back at its origin. -/
def reset (c : Cursor) : Cursor :=
  { c with current := c.origin }

/-- Moves along a link, if the node has it. -/
def follow? (link : NodeData → Option NodeId) (c : Cursor) : Option Cursor :=
  (link (c.tree.node c.current)).map fun id => { c with current := id }

/-- Whether two cursors stand on the same node of the same document. -/
def same (c d : Cursor) : Bool :=
  c.document == d.document && c.current == d.current

/-- Navigation with cursors. -/
def navigator : Navigator Cursor where
  nodeType c := c.tree.navigator.nodeType c.current
  localName c := c.tree.navigator.localName c.current
  stringValue c := c.tree.navigator.stringValue c.current
  typedValue c := c.tree.navigator.typedValue c.current
  root c := { c with current := Tree.root }
  parent? := follow? NodeData.parent
  firstChild? := follow? NodeData.firstChild
  next? := follow? NodeData.nextSibling
  previous? := follow? NodeData.previousSibling
  same := same
  order c d := compare c.current d.current
  bound c := c.tree.size

end Cursor

end CborPath
