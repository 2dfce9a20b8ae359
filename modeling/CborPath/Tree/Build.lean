import CborPath.Document.Entries
import CborPath.Tree.Link

/-!
# Building trees

A value is placed below an anchor at a given depth.  Each item of a sequence gets an element of its
own; each entry of a mapping gets an element named by its key, in the order of the names, except
that the items of a sequence stand directly in the place of the entry that holds it, as elements of
the entry's name.  A scalar becomes a text node.

All keys of a mapping are named before anything of it is placed, so the first key in document order
that names no element stops the building.
-/

namespace CborPath

namespace Tree

mutual

/-- Places a value below an anchor.  The name is that of the mapping entry that holds it, if any. -/
def place (t : Tree) (anchor : NodeId) (value : Value) (name : String) (depth : Nat) :
    Except UnsupportedKey Tree :=
  match value with
  | .sequence items =>
      placeItems t anchor items (itemElementName name) depth
  | .mapping entries =>
      match _h : nameEntries entries with
      | .error e => .error e
      | .ok named => placeEntries t anchor (sortEntries named) depth
  | .scalar s =>
      let (t, text) := t.create (NodeData.text s depth)
      .ok (t.attach anchor text)
termination_by sizeOf value
decreasing_by
  · simp
  · have := entriesWeight_nameEntries _h
    simp only [entriesWeight_sortEntries, Value.mapping.sizeOf_spec]
    omega

/-- Places an element for each item of a sequence, and the item below it. -/
def placeItems (t : Tree) (anchor : NodeId) (items : List Value) (name : String) (depth : Nat) :
    Except UnsupportedKey Tree :=
  match items with
  | [] => .ok t
  | item :: rest => do
      let (t, element) := t.create (NodeData.element name depth)
      let t ← place (t.attach anchor element) element item "" (depth + 1)
      placeItems t anchor rest name depth
termination_by sizeOf items

/-- Places named entries.  An element is linked to the anchor once its content is complete. -/
def placeEntries (t : Tree) (anchor : NodeId) (entries : List (String × Value)) (depth : Nat) :
    Except UnsupportedKey Tree :=
  match entries with
  | [] => .ok t
  | (name, value) :: rest => do
      if value.isSequence then
        let t ← place t anchor value name depth
        placeEntries t anchor rest depth
      else
        let (t, element) := t.create (NodeData.element name depth)
        let t ← place t element value "" (depth + 1)
        placeEntries (t.attach anchor element) anchor rest depth
termination_by entriesWeight entries
decreasing_by
  all_goals simp only [entriesWeight]
  all_goals omega

end

/-- The tree of a document. -/
def build (value : Value) : Except UnsupportedKey Tree :=
  place start root value "" 1

end Tree

end CborPath
