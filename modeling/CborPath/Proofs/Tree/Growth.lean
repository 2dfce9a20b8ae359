import CborPath.Proofs.Tree.Layout

/-!
# Growing trees

While a tree is built, the node that is being filled is the last one whose content is not complete:
what it holds so far reaches to the end of the array.  Linking a complete node below it adds one part
to the forest that it holds, and filling an empty element below it completes the last part.
-/

namespace CborPath

namespace Tree

section Attach

variable {t : Tree} {anchor node : Nat}
  (hDepth : (t.node anchor).depth < (t.node node).depth)
  (hAnchor : anchor < t.size) (hNode : node < t.size)
include hDepth hAnchor hNode

/-- Linking the first child. -/
theorem node_attach_first (hLast : (t.node anchor).lastChild = none) (id : Nat) :
    (t.attach anchor node).node id =
      if id = anchor then
        { t.node anchor with firstChild := some node, lastChild := some node }
      else if id = node then { t.node node with parent := some anchor }
      else t.node id := by
  have hNe : node ≠ anchor := by
    rintro rfl
    omega
  unfold attach
  rw [if_neg (by omega), if_pos hDepth, hLast]
  dsimp only
  by_cases hIdAnchor : id = anchor
  · subst hIdAnchor
    rw [if_pos rfl, node_update_of_ne hNe.symm, node_update_self (by simpa using hAnchor),
      node_update_self hAnchor]
  · rw [if_neg hIdAnchor]
    by_cases hIdNode : id = node
    · subst hIdNode
      rw [if_pos rfl, node_update_self (by simpa using hNode), node_update_of_ne hNe,
        node_update_of_ne hNe]
    · rw [if_neg hIdNode, node_update_of_ne hIdNode, node_update_of_ne hIdAnchor,
        node_update_of_ne hIdAnchor]

/-- Linking a further child. -/
theorem node_attach_next {last : Nat} (hLast : (t.node anchor).lastChild = some last)
    (hSize : last < t.size) (hAnchorNe : last ≠ anchor) (hNodeNe : last ≠ node) (id : Nat) :
    (t.attach anchor node).node id =
      if id = anchor then { t.node anchor with lastChild := some node }
      else if id = node then
        { t.node node with parent := some anchor, previousSibling := some last }
      else if id = last then { t.node last with nextSibling := some node }
      else t.node id := by
  have hNe : node ≠ anchor := by
    rintro rfl
    omega
  unfold attach
  rw [if_neg (by omega), if_pos hDepth, hLast]
  dsimp only
  by_cases hIdAnchor : id = anchor
  · subst hIdAnchor
    rw [if_pos rfl, node_update_of_ne hNe.symm, node_update_self (by simpa using hAnchor),
      node_update_of_ne hNe.symm, node_update_of_ne hAnchorNe.symm]
  · rw [if_neg hIdAnchor]
    by_cases hIdNode : id = node
    · subst hIdNode
      rw [if_pos rfl, node_update_self (by simpa using hNode), node_update_of_ne hNe,
        node_update_self (by simpa using hNode), node_update_of_ne hNodeNe.symm]
    · rw [if_neg hIdNode, node_update_of_ne hIdNode, node_update_of_ne hIdAnchor,
        node_update_of_ne hIdNode]
      by_cases hIdLast : id = last
      · subst hIdLast
        rw [if_pos rfl, node_update_self hSize]
      · rw [if_neg hIdLast, node_update_of_ne hIdLast]

end Attach

/-- Whether a tree ends with what a node holds. -/
structure EndsWith (t : Tree) (id : Nat) (forest : List Outline) : Prop extends
    t.Holds id forest where
  size_eq : t.size = id + 1 + forestSize forest

theorem EndsWith.lt_size {t : Tree} {id : Nat} {forest : List Outline} (h : t.EndsWith id forest) :
    id < t.size := by
  rw [h.size_eq]
  omega

/-- Whether a tree has been changed below an anchor only: the nodes before the anchor are the same,
and of the anchor itself all but the links to its children. -/
structure ChangedBelow (t t' : Tree) (anchor : Nat) : Prop where
  node_eq : ∀ id : Nat, id < anchor → t'.node id = t.node id
  anchor_eq : t'.node anchor =
    { t.node anchor with
      firstChild := (t'.node anchor).firstChild, lastChild := (t'.node anchor).lastChild }

theorem ChangedBelow.refl (t : Tree) (anchor : Nat) :
    t.ChangedBelow t anchor :=
  ⟨fun _ _ => rfl, rfl⟩

theorem ChangedBelow.trans {t t' t'' : Tree} {anchor : Nat} (h : t.ChangedBelow t' anchor)
    (h' : t'.ChangedBelow t'' anchor) :
    t.ChangedBelow t'' anchor where
  node_eq id hLt := by rw [h'.node_eq id hLt, h.node_eq id hLt]
  anchor_eq := by rw [h'.anchor_eq, h.anchor_eq]

theorem ChangedBelow.depth_eq {t t' : Tree} {anchor : Nat} (h : t.ChangedBelow t' anchor) :
    (t'.node anchor).depth = (t.node anchor).depth := by
  rw [h.anchor_eq]

/-- What is changed below a later node is changed below an earlier one. -/
theorem ChangedBelow.of_lt {t t' : Tree} {anchor node : Nat} (h : t.ChangedBelow t' node)
    (hLt : anchor < node) :
    t.ChangedBelow t' anchor where
  node_eq id hId := h.node_eq id (by omega)
  anchor_eq := by rw [h.node_eq anchor hLt]

/-- A forest that is followed by one more part. -/
theorem Lays.setNext {t t' : Tree} {parent : NodeId} {depth start : Nat}
    {previous next : Option NodeId} {forest : List Outline} {last : Outline}
    (h : t.Lays parent depth previous none start (forest ++ [last]))
    (hNode : ∀ id : Nat, start ≤ id → id < start + forestSize (forest ++ [last]) →
      t'.node id =
        if id = start + forestSize forest then { t.node id with nextSibling := next }
        else t.node id) :
    t'.Lays parent depth previous next start (forest ++ [last]) := by
  rw [forestSize_append, forestSize_cons] at hNode
  obtain ⟨hBefore, hLast⟩ := lays_append_iff.1 h
  obtain _ | ⟨hOwn, hParts, -⟩ := hLast
  refine lays_append_iff.2 ⟨hBefore.congr fun id hLow hHigh => ?_, .cons ?_ ?_ .nil⟩
  · rw [hNode id hLow (by omega), if_neg (by omega)]
  · rw [hNode _ (by omega) (by omega), if_pos rfl, hOwn]
    rfl
  · refine hParts.congr fun id hLow hHigh => ?_
    rw [hNode id (by omega) (by omega), if_neg (by omega)]

theorem firstPlace_concat (otherwise : Option NodeId) (start : Nat) (forest : List Outline)
    (last : Outline) :
    firstPlace otherwise start (forest ++ [last]) = some start := by
  cases forest <;> rfl

theorem lastPlace_concat (otherwise : Option NodeId) (start : Nat) (forest : List Outline)
    (last : Outline) :
    lastPlace otherwise start (forest ++ [last]) = some (start + forestSize forest) := by
  rw [lastPlace_append]
  rfl

section Attach

variable {t : Tree} {anchor node : Nat} {done : List Outline} {part : Outline}
  (hDone : t.Holds anchor done)
  (hPlace : node = anchor + 1 + forestSize done)
  (hSize : t.size = node + part.size)
  (hNode : t.node node = part.node node ((t.node anchor).depth + 1) none none none)
  (hParts : t.Lays node ((t.node anchor).depth + 1 + 1) none none (node + 1) part.parts)
include hDone hPlace hSize hNode hParts

/-- Linking a complete node lays it out behind what the anchor holds, and changes the anchor's links
to its children. -/
theorem Holds.lays_attach :
    (t.attach anchor node).Lays anchor ((t.node anchor).depth + 1) none none (anchor + 1)
        (done ++ [part]) ∧
      (t.attach anchor node).node anchor =
        { t.node anchor with
          firstChild := firstPlace none (anchor + 1) (done ++ [part]), lastChild := some node } ∧
      ∀ id : Nat, id < anchor → (t.attach anchor node).node id = t.node id := by
  have hDepth : (t.node anchor).depth < (t.node node).depth := by
    rw [hNode]
    exact Nat.lt_succ_self _
  rw [Outline.size_eq] at hSize
  have hLast := hDone.lastChild
  rcases List.eq_nil_or_concat done with rfl | ⟨before, last, hConcat⟩
  · -- The part is the first.
    rw [forestSize_nil, Nat.add_zero] at hPlace
    have hLink := node_attach_first hDepth (by omega) (by omega) hLast
    refine ⟨?_, ?_, fun id hId => ?_⟩
    · rw [List.nil_append, ← hPlace]
      refine .cons ?_ (hParts.congr fun id hLow hHigh => ?_) .nil
      · rw [hLink, if_neg (by omega), if_pos rfl, hNode]
        rfl
      · rw [hLink, if_neg (by omega), if_neg (by omega)]
    · rw [hLink, if_pos rfl, hPlace]
      rfl
    · rw [hLink, if_neg (by omega), if_neg (by omega)]
  · -- The part stands behind another.
    rw [List.concat_eq_append] at hConcat
    subst hConcat
    rw [lastPlace_concat] at hLast
    have hTotal := hPlace
    rw [forestSize_append, forestSize_cons] at hTotal
    have hLink := node_attach_next hDepth (by omega) (by omega) hLast (by omega) (by omega)
      (by omega)
    refine ⟨?_, ?_, fun id hId => ?_⟩
    · refine lays_append_iff.2 ⟨hDone.below.setNext fun id hLow hHigh => ?_, ?_⟩
      · rw [hLink, if_neg (by omega), if_neg (by omega)]
        split
        · rename_i hId
          rw [hId, hPlace]
          rfl
        · rfl
      · rw [← hPlace, lastPlace_concat]
        refine .cons ?_ (hParts.congr fun id hLow hHigh => ?_) .nil
        · rw [hLink, if_neg (by omega), if_pos rfl, hNode]
          rfl
        · rw [hLink, if_neg (by omega), if_neg (by omega), if_neg (by omega)]
    · have hFirst := hDone.firstChild
      rw [firstPlace_concat] at hFirst
      rw [hLink, if_pos rfl, firstPlace_concat, ← hFirst]
    · rw [hLink, if_neg (by omega), if_neg (by omega), if_neg (by omega)]

theorem Holds.attach :
    (t.attach anchor node).EndsWith anchor (done ++ [part]) := by
  obtain ⟨hBelow, hAnchor, -⟩ := hDone.lays_attach hPlace hSize hNode hParts
  refine ⟨⟨?_, ?_, ?_⟩, ?_⟩
  · rw [hAnchor]
  · rw [hAnchor, lastPlace_concat, hPlace]
  · rw [hAnchor]
    exact hBelow
  · rw [Outline.size_eq] at hSize
    rw [size_attach, forestSize_append, forestSize_cons, forestSize_nil]
    omega

theorem Holds.changedBelow_attach :
    t.ChangedBelow (t.attach anchor node) anchor := by
  obtain ⟨-, hAnchor, hBefore⟩ := hDone.lays_attach hPlace hSize hNode hParts
  refine ⟨hBefore, ?_⟩
  rw [hAnchor]

end Attach

/-- The last part of a forest at the end of a tree. -/
theorem EndsWith.last {t : Tree} {anchor : Nat} {done : List Outline} {part : Outline}
    (h : t.EndsWith anchor (done ++ [part])) :
    t.EndsWith (anchor + 1 + forestSize done) part.parts ∧
      (t.node (anchor + 1 + forestSize done)).depth = (t.node anchor).depth + 1 := by
  obtain _ | ⟨hOwn, hParts, -⟩ := (lays_append_iff.1 h.below).2
  have hDepth : (t.node (anchor + 1 + forestSize done)).depth = (t.node anchor).depth + 1 := by
    rw [hOwn]
    rfl
  refine ⟨⟨⟨?_, ?_, ?_⟩, ?_⟩, hDepth⟩
  · rw [hOwn]
    rfl
  · rw [hOwn]
    rfl
  · rw [hDepth]
    exact hParts
  · rw [h.size_eq, forestSize_append, forestSize_cons, forestSize_nil]
    omega

/-- Filling the empty element that a forest ends with completes the forest. -/
theorem EndsWith.fill {t t' : Tree} {anchor node : Nat} {done parts : List Outline}
    {name : String} (hDone : t.EndsWith anchor (done ++ [.element name []]))
    (hPlace : node = anchor + 1 + forestSize done) (hFilled : t'.EndsWith node parts)
    (hChanged : t.ChangedBelow t' node) :
    t'.EndsWith anchor (done ++ [.element name parts]) := by
  have hAnchor := hChanged.node_eq anchor (by omega)
  obtain ⟨hBefore, hLast⟩ := lays_append_iff.1 hDone.below
  rw [← hPlace] at hLast
  obtain _ | ⟨hOwn, -, -⟩ := hLast
  refine ⟨⟨?_, ?_, ?_⟩, ?_⟩
  · rw [hAnchor, hDone.firstChild, firstPlace_concat, firstPlace_concat]
  · rw [hAnchor, hDone.lastChild, lastPlace_concat, lastPlace_concat]
  · rw [hAnchor]
    refine lays_append_iff.2 ⟨hBefore.congr fun id hLow hHigh => ?_, ?_⟩
    · exact hChanged.node_eq id (by omega)
    · rw [← hPlace]
      refine .cons ?_ ?_ .nil
      · rw [hChanged.anchor_eq, hFilled.firstChild, hFilled.lastChild, hOwn]
        rfl
      · have hBelow := hFilled.below
        rw [hChanged.depth_eq, hOwn] at hBelow
        exact hBelow
  · rw [hFilled.size_eq, forestSize_append, forestSize_cons, forestSize_nil]
    simp only [Outline.parts]
    omega

section Create

variable (t : Tree) (data : NodeData)

theorem node_create_of_lt {id : Nat} (h : id < t.size) :
    (t.create data).1.node id = t.node id :=
  node_create_of_ne (Nat.ne_of_lt h)

theorem changedBelow_create {anchor : Nat} (h : anchor < t.size) :
    t.ChangedBelow (t.create data).1 anchor where
  node_eq id hId := node_create_of_lt _ _ (by omega)
  anchor_eq := by rw [node_create_of_lt _ _ (by omega)]

/-- A new element ends its tree, and holds nothing. -/
theorem endsWith_create_element (name : String) (depth : Nat) :
    (t.create (NodeData.element name depth)).1.EndsWith t.size [] := by
  refine ⟨⟨?_, ?_, .nil⟩, by simp⟩
  · rw [node_create_self]
    rfl
  · rw [node_create_self]
    rfl

/-- Creating a node leaves what an earlier one holds. -/
theorem Holds.create {t : Tree} {anchor : Nat} {done : List Outline} (h : t.Holds anchor done)
    (hSize : t.size = anchor + 1 + forestSize done) :
    (t.create data).1.Holds anchor done := by
  have hAnchor : (t.create data).1.node anchor = t.node anchor := node_create_of_lt _ _ (by omega)
  refine ⟨?_, ?_, ?_⟩
  · rw [hAnchor, h.firstChild]
  · rw [hAnchor, h.lastChild]
  · rw [hAnchor]
    exact h.below.congr fun id hLow hHigh => node_create_of_lt _ _ (by omega)

end Create

/-- Whether a tree ends with a complete node, which is to be linked behind what an anchor holds. -/
structure Completes (t : Tree) (anchor node : Nat) (done : List Outline) (part : Outline) : Prop where
  holds : t.Holds anchor done
  place_eq : node = anchor + 1 + forestSize done
  size_eq : t.size = node + part.size
  node_eq : t.node node = part.node node ((t.node anchor).depth + 1) none none none
  parts : t.Lays node ((t.node anchor).depth + 1 + 1) none none (node + 1) part.parts

section Completes

variable {t t' : Tree} {anchor node : Nat} {done parts : List Outline} {part : Outline}

theorem Completes.attach (h : t.Completes anchor node done part) :
    (t.attach anchor node).EndsWith anchor (done ++ [part]) ∧
      t.ChangedBelow (t.attach anchor node) anchor :=
  ⟨h.holds.attach h.place_eq h.size_eq h.node_eq h.parts,
    h.holds.changedBelow_attach h.place_eq h.size_eq h.node_eq h.parts⟩

/-- A new node that holds nothing is complete. -/
theorem EndsWith.completes_create (h : t.EndsWith anchor done) (data : NodeData) (part : Outline)
    (hData : data = part.node t.size ((t.node anchor).depth + 1) none none none)
    (hParts : part.parts = []) :
    (t.create data).1.Completes anchor t.size done part := by
  have hLt : anchor < t.size := by
    rw [h.size_eq]
    omega
  refine ⟨h.toHolds.create data h.size_eq, h.size_eq, ?_, ?_, ?_⟩
  · rw [size_create, Outline.size_eq, hParts, forestSize_nil]
  · rw [node_create_self, node_create_of_lt _ _ hLt, hData]
  · rw [hParts]
    exact .nil

/-- An element is complete once it is filled. -/
theorem Holds.completes_filled {name : String} (hDone : t.Holds anchor done)
    (hPlace : node = anchor + 1 + forestSize done)
    (hNode : t.node node = NodeData.element name ((t.node anchor).depth + 1))
    (hFilled : t'.EndsWith node parts) (hChanged : t.ChangedBelow t' node) :
    t'.Completes anchor node done (.element name parts) := by
  have hAnchor := hChanged.node_eq anchor (by omega)
  have hOwn : t'.node node =
      (Outline.element name parts).node node ((t'.node anchor).depth + 1) none none none := by
    rw [hChanged.anchor_eq, hFilled.firstChild, hFilled.lastChild, hNode, hAnchor]
    rfl
  have hBelow := hFilled.below
  rw [hOwn] at hBelow
  refine ⟨⟨?_, ?_, ?_⟩, hPlace, ?_, hOwn, hBelow⟩
  · rw [hAnchor, hDone.firstChild]
  · rw [hAnchor, hDone.lastChild]
  · rw [hAnchor]
    exact hDone.below.congr fun id _ hHigh => hChanged.node_eq id (by omega)
  · rw [hFilled.size_eq, Outline.size_eq]
    simp only [Outline.parts]
    omega

end Completes

end Tree

end CborPath
