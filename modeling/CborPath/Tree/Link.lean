import CborPath.Tree.Basic

/-!
# Adding and linking nodes

The three steps in which trees grow: a node is created at the end of the array, a node is changed
where it stands, and a created node is linked to an anchor by comparing their depths.

The lemmas say what a step does to the size of a tree and to the node at each place.
-/

namespace CborPath

namespace Tree

/-- The tree of a document node alone. -/
def start : Tree :=
  ⟨#[NodeData.document]⟩

/-- Adds a node without links, and gives its place. -/
def create (t : Tree) (data : NodeData) : Tree × NodeId :=
  let id := t.size
  (⟨t.nodes.push data⟩, id)

/-- Changes the node at a place. -/
def update (t : Tree) (id : NodeId) (change : NodeData → NodeData) : Tree :=
  ⟨t.nodes.modify id change⟩

/-- Links a node to its anchor: as the next sibling at equal depths, as the last child at a greater
one. -/
def attach (t : Tree) (anchor node : NodeId) : Tree :=
  if (t.node node).depth = (t.node anchor).depth then
    let parent := (t.node anchor).parent
    let t := t.update anchor fun data => { data with nextSibling := some node }
    let t := t.update node fun data =>
      { data with previousSibling := some anchor, parent := parent }
    match parent with
    | none => t
    | some parent => t.update parent fun data => { data with lastChild := some node }
  else if (t.node anchor).depth < (t.node node).depth then
    let t :=
      match (t.node anchor).lastChild with
      | none => t.update anchor fun data => { data with firstChild := some node }
      | some last =>
          let t := t.update last fun data => { data with nextSibling := some node }
          t.update node fun data => { data with previousSibling := some last }
    let t := t.update anchor fun data => { data with lastChild := some node }
    t.update node fun data => { data with parent := some anchor }
  else t

@[simp] theorem size_start : start.size = 1 :=
  rfl

@[simp] theorem create_snd (t : Tree) (data : NodeData) :
    (t.create data).2 = t.size :=
  rfl

@[simp] theorem size_create (t : Tree) (data : NodeData) :
    (t.create data).1.size = t.size + 1 := by
  simp [create, size]

@[simp] theorem size_update (t : Tree) (id : NodeId) (change : NodeData → NodeData) :
    (t.update id change).size = t.size := by
  simp [update, size]

/-- Linking adds no nodes. -/
@[simp] theorem size_attach (t : Tree) (anchor node : NodeId) :
    (t.attach anchor node).size = t.size := by
  unfold attach
  dsimp only
  split
  · split <;> simp
  · split
    · split <;> simp
    · rfl

/-- A new node stands where its tree ended before. -/
theorem node_create_self (t : Tree) (data : NodeData) :
    (t.create data).1.node t.size = data := by
  simp [create, size, node]

/-- Creating a node changes no other. -/
theorem node_create_of_ne {t : Tree} {data : NodeData} {id : NodeId}
    (h : id ≠ t.size) :
    (t.create data).1.node id = t.node id := by
  simp only [create, size, node] at *
  rw [Array.getElem?_push, if_neg h]

/-- A changed node. -/
theorem node_update_self {t : Tree} {id : NodeId} {change : NodeData → NodeData}
    (h : id < t.size) :
    (t.update id change).node id = change (t.node id) := by
  simp only [size] at h
  simp [update, node, Array.getElem_modify, h]

/-- Changing a node changes no other. -/
theorem node_update_of_ne {t : Tree} {id other : NodeId} {change : NodeData → NodeData}
    (h : other ≠ id) :
    (t.update id change).node other = t.node other := by
  simp [update, node, Array.getElem?_modify, Ne.symm h]

/-- Where no node stands, the one that stands in has no links. -/
theorem node_of_size_le {t : Tree} {id : NodeId} (h : t.size ≤ id) :
    t.node id = NodeData.document := by
  simp only [size] at h
  simp [node, Array.getElem?_eq_none h]

end Tree

end CborPath
