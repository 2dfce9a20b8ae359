import CborPath.Document.Value
import CborPath.Traversal

/-!
# Node trees

A document is queried as a tree of nodes: one document node at the root, elements for mapping
entries and sequence items, and text nodes for scalars.  The nodes of a tree stand in one array and
refer to each other by their places in it.  A built tree has its nodes in document order, each node
before everything below it, and the root first.
-/

namespace CborPath

/-- The place of a node in the array of its tree. -/
abbrev NodeId := Nat

/-- The root, a former mapping entry or sequence item, and a former scalar. -/
inductive NodeKind
  | document
  | element
  | text
  deriving DecidableEq, Repr

/-- A node with its links to other nodes. -/
structure NodeData where
  kind : NodeKind
  name : String
  value : Option Scalar
  depth : Nat
  parent : Option NodeId := none
  firstChild : Option NodeId := none
  lastChild : Option NodeId := none
  previousSibling : Option NodeId := none
  nextSibling : Option NodeId := none
  deriving DecidableEq, Repr

namespace NodeData

/-- The document node without links. -/
def document : NodeData :=
  { kind := .document, name := "", value := none, depth := 0 }

/-- An element without links. -/
def element (name : String) (depth : Nat) : NodeData :=
  { kind := .element, name := name, value := none, depth := depth }

/-- A text node without links.  Its name is the text of its scalar. -/
def text (value : Scalar) (depth : Nat) : NodeData :=
  { kind := .text, name := value.rendition, value := some value, depth := depth }

end NodeData

/-- The nodes of a document. -/
structure Tree where
  nodes : Array NodeData
  deriving DecidableEq, Repr

namespace Tree

instance : Inhabited Tree := ⟨⟨#[NodeData.document]⟩⟩

/-- The root of every tree. -/
def root : NodeId := 0

/-- The number of nodes. -/
def size (t : Tree) : Nat :=
  t.nodes.size

/-- Whether a node stands at a place. -/
def contains (t : Tree) (id : NodeId) : Bool :=
  id < t.size

/-- The node at a place.  Where there is none, a document node without links stands in. -/
def node (t : Tree) (id : NodeId) : NodeData :=
  t.nodes[id]?.getD NodeData.document

/-- A node's children, found from the first child by following next siblings. -/
def children (t : Tree) (id : NodeId) : List NodeId :=
  match (t.node id).firstChild with
  | none => []
  | some child => child :: repeatMove (fun i => (t.node i).nextSibling) t.size child

/-- The names of the text nodes at or below a node, down to the given depth. -/
def textWithin (t : Tree) : Nat → NodeId → String
  | 0, _ => ""
  | bound + 1, id =>
      if (t.node id).kind = .text then (t.node id).name
      else String.join ((t.children id).map (textWithin t bound))

/-- The names of all text nodes at or below a node, one after the other. -/
def innerText (t : Tree) (id : NodeId) : String :=
  t.textWithin t.size id

/-- The first child element with the given name. -/
def selectElement? (t : Tree) (id : NodeId) (name : String) : Option NodeId :=
  (t.children id).find? fun child => (t.node child).kind = .element && (t.node child).name = name

/-- The scalar held by a node: that of a text node, or that of an element's only child if it is a
text node. -/
def content? (t : Tree) (id : NodeId) : Option Scalar :=
  match (t.node id).kind with
  | .text => (t.node id).value
  | .element =>
      match (t.node id).firstChild with
      | none => none
      | some child =>
          if (t.node child).kind = .text && (t.node child).nextSibling.isNone then
            (t.node child).value
          else none
  | .document => none

end Tree

end CborPath
