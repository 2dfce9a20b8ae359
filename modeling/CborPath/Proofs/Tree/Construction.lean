import CborPath.Proofs.Document.Keys
import CborPath.Proofs.Tree.Growth
import CborPath.Tree.Build

/-!
# The construction of trees

Building follows the outline of the document: it fails where the outline fails, with the same error,
and otherwise the nodes of the tree are the layout of the outline behind the root.  Items are linked
before they are filled and entries after, but what an anchor holds grows by the same parts.
-/

namespace CborPath

namespace Tree

/-- Whether an outcome of building below an anchor, which holds some parts already, is what an
outline says: the same failure, or the parts of the outline added to those of the anchor. -/
def Adds (t : Tree) (anchor : Nat) (done : List Outline) (outcome : Except UnsupportedKey Tree) :
    Except UnsupportedKey (List Outline) → Prop
  | .error e => outcome = .error e
  | .ok parts =>
      ∃ t', outcome = .ok t' ∧ t'.EndsWith anchor (done ++ parts) ∧ t.ChangedBelow t' anchor

section Adds

variable {t : Tree} {anchor : Nat} {done : List Outline} {outcome : Except UnsupportedKey Tree}
  {outline : Except UnsupportedKey (List Outline)}

/-- One thing after the other. -/
theorem Adds.bind {next : Tree → Except UnsupportedKey Tree}
    {others : Except UnsupportedKey (List Outline)}
    (hFirst : t.Adds anchor done outcome outline)
    (hNext : ∀ t' parts, t'.EndsWith anchor (done ++ parts) → t.ChangedBelow t' anchor →
      t'.Adds anchor (done ++ parts) (next t') others) :
    t.Adds anchor done (outcome >>= next)
      (outline >>= fun parts => others >>= fun rest => pure (parts ++ rest)) := by
  cases outline with
  | error e =>
      cases hFirst
      rfl
  | ok parts =>
      obtain ⟨t', rfl, hEnds, hChanged⟩ := hFirst
      have hRest := hNext t' parts hEnds hChanged
      cases others with
      | error e => exact hRest
      | ok rest =>
          obtain ⟨t'', hOutcome, hEnds', hChanged'⟩ := hRest
          rw [List.append_assoc] at hEnds'
          exact ⟨t'', hOutcome, hEnds', hChanged.trans hChanged'⟩

/-- One element and what follows it. -/
theorem Adds.bind_cons {name : String} {next : Tree → Except UnsupportedKey Tree}
    {others : Except UnsupportedKey (List Outline)}
    (hFirst : t.Adds anchor done outcome (outline >>= fun parts => pure [.element name parts]))
    (hNext : ∀ t' parts, t'.EndsWith anchor (done ++ parts) → t.ChangedBelow t' anchor →
      t'.Adds anchor (done ++ parts) (next t') others) :
    t.Adds anchor done (outcome >>= next)
      (outline >>= fun parts => others >>= fun rest => pure (.element name parts :: rest)) := by
  have h := hFirst.bind hNext
  cases outline <;> exact h

theorem Adds.of_changedBelow {t' : Tree} (h : t'.Adds anchor done outcome outline)
    (hChanged : t.ChangedBelow t' anchor) :
    t.Adds anchor done outcome outline := by
  cases outline with
  | error e => exact h
  | ok parts =>
      obtain ⟨t'', hOutcome, hEnds, hChanged'⟩ := h
      exact ⟨t'', hOutcome, hEnds, hChanged.trans hChanged'⟩

/-- Filling an item's element, which is linked already. -/
theorem Adds.item {node : Nat} {name : String}
    (hPlace : node = anchor + 1 + forestSize done)
    (hDone : t.EndsWith anchor (done ++ [.element name []]))
    (hContent : t.Adds node [] outcome outline) :
    t.Adds anchor done outcome (outline >>= fun parts => pure [.element name parts]) := by
  cases outline with
  | error e => exact hContent
  | ok parts =>
      obtain ⟨t', hOutcome, hEnds, hChanged⟩ := hContent
      exact ⟨t', hOutcome, hDone.fill hPlace hEnds hChanged, hChanged.of_lt (by omega)⟩

/-- Filling an entry's element, and then linking it. -/
theorem Adds.entry {node : Nat} {name : String}
    (hPlace : node = anchor + 1 + forestSize done)
    (hDone : t.Holds anchor done)
    (hNode : t.node node = NodeData.element name ((t.node anchor).depth + 1))
    (hContent : t.Adds node [] outcome outline) :
    t.Adds anchor done (outcome >>= fun t' => pure (t'.attach anchor node))
      (outline >>= fun parts => pure [.element name parts]) := by
  cases outline with
  | error e =>
      cases hContent
      rfl
  | ok parts =>
      obtain ⟨t', rfl, hEnds, hChanged⟩ := hContent
      obtain ⟨hAttached, hBelow⟩ := (hDone.completes_filled hPlace hNode hEnds hChanged).attach
      exact ⟨_, rfl, hAttached, (hChanged.of_lt (by omega)).trans hBelow⟩

end Adds

/-- Creating a node and linking it at once. -/
theorem EndsWith.attach_create {t : Tree} {anchor : Nat} {done : List Outline}
    (hEnds : t.EndsWith anchor done) (data : NodeData) (part : Outline)
    (hData : data = part.node t.size ((t.node anchor).depth + 1) none none none)
    (hParts : part.parts = []) :
    ((t.create data).1.attach anchor t.size).EndsWith anchor (done ++ [part]) ∧
      t.ChangedBelow ((t.create data).1.attach anchor t.size) anchor := by
  obtain ⟨hAttached, hBelow⟩ := (hEnds.completes_create data part hData hParts).attach
  exact ⟨hAttached, (changedBelow_create t data hEnds.lt_size).trans hBelow⟩

/-- An element that has been created, and is still to be linked, holds nothing and ends its tree. -/
theorem EndsWith.create_element {t t' : Tree} {anchor : Nat} {done : List Outline} {name : String}
    (hEnds : t.EndsWith anchor done)
    (hCreated : (t.create (NodeData.element name ((t.node anchor).depth + 1))).1 = t') :
    t'.Holds anchor done ∧ t'.EndsWith t.size [] ∧
      t'.node t.size = NodeData.element name ((t'.node anchor).depth + 1) ∧
      (t'.node t.size).depth = (t.node anchor).depth + 1 ∧ t.ChangedBelow t' anchor := by
  subst hCreated
  refine ⟨hEnds.toHolds.create _ hEnds.size_eq, endsWith_create_element t name _, ?_, ?_,
    changedBelow_create t _ hEnds.lt_size⟩
  · rw [node_create_self, node_create_of_lt t _ hEnds.lt_size]
  · rw [node_create_self]
    rfl

/-- An element that has been created and linked holds nothing, and ends its tree. -/
theorem EndsWith.link_element {t t' : Tree} {anchor : Nat} {done : List Outline} {name : String}
    (hEnds : t.EndsWith anchor done)
    (hLinked : (t.create (NodeData.element name ((t.node anchor).depth + 1))).1.attach anchor t.size =
      t') :
    t'.EndsWith anchor (done ++ [.element name []]) ∧ t'.EndsWith t.size [] ∧
      (t'.node t.size).depth = (t.node anchor).depth + 1 ∧ t.ChangedBelow t' anchor := by
  subst hLinked
  obtain ⟨hElement, hChanged⟩ :=
    hEnds.attach_create (NodeData.element name _) (.element name []) rfl rfl
  obtain ⟨hEmpty, hDepth⟩ := hElement.last
  rw [← hEnds.size_eq] at hEmpty hDepth
  exact ⟨hElement, hEmpty, by rw [hDepth, hChanged.depth_eq], hChanged⟩

/-- The entries of a mapping are placed in order, if all its keys name elements. -/
theorem place_mapping (t : Tree) (anchor : NodeId) (entries : List (Value × Value))
    (name : String) (depth : Nat) :
    t.place anchor (.mapping entries) name depth =
      nameEntries entries >>= fun _ => t.placeEntries anchor (orderedEntries entries) depth := by
  rw [place]
  split
  · rename_i e hNamed
    rw [hNamed]
    rfl
  · rename_i named hNamed
    rw [hNamed, orderedEntries, ← eq_map_of_nameEntries_eq_ok hNamed]
    rfl

mutual

/-- Placing a value adds its outline to what the anchor holds. -/
theorem adds_place (name : String) (value : Value) {t : Tree} {anchor depth : Nat}
    {done : List Outline} (hEnds : t.EndsWith anchor done)
    (hDepth : depth = (t.node anchor).depth + 1) :
    t.Adds anchor done (t.place anchor value name depth) (value.outlineUnder name) := by
  match value with
  | .sequence items =>
      rw [place, outlineUnder_sequence]
      exact adds_placeItems (itemElementName name) items hEnds hDepth
  | .mapping entries =>
      rw [place_mapping, outlineUnder_mapping]
      cases nameEntries entries with
      | error e => rfl
      | ok named => exact adds_placeEntries (orderedEntries entries) hEnds hDepth
  | .scalar s =>
      rw [place, outlineUnder_scalar]
      subst hDepth
      obtain ⟨hEnds', hChanged⟩ := hEnds.attach_create _ (.text s.rendition s) rfl rfl
      exact ⟨_, rfl, hEnds', hChanged⟩
termination_by sizeOf value
decreasing_by
  · simp
  · have := entriesWeight_orderedEntries entries
    simp only [Value.mapping.sizeOf_spec]
    omega

/-- Placing items adds an element for each of them. -/
theorem adds_placeItems (name : String) (items : List Value) {t : Tree} {anchor depth : Nat}
    {done : List Outline} (hEnds : t.EndsWith anchor done)
    (hDepth : depth = (t.node anchor).depth + 1) :
    t.Adds anchor done (t.placeItems anchor items name depth) (outlineItems name items) := by
  match items with
  | [] =>
      rw [placeItems, outlineItems]
      exact ⟨t, rfl, by simpa using hEnds, .refl t anchor⟩
  | item :: rest =>
      rw [placeItems, outlineItems]
      subst hDepth
      obtain ⟨hElement, hEmpty, hDepth, hChanged⟩ := hEnds.link_element rfl
      have hContent := adds_place "" item hEmpty rfl
      rw [hDepth] at hContent
      refine ((hContent.item hEnds.size_eq hElement).of_changedBelow hChanged).bind_cons ?_
      intro t' parts hEnds' hChanged'
      exact adds_placeItems name rest hEnds' (by rw [hChanged'.depth_eq])
termination_by sizeOf items

/-- Placing entries adds an element for each of them, or those of the items. -/
theorem adds_placeEntries (entries : List (String × Value)) {t : Tree} {anchor depth : Nat}
    {done : List Outline} (hEnds : t.EndsWith anchor done)
    (hDepth : depth = (t.node anchor).depth + 1) :
    t.Adds anchor done (t.placeEntries anchor entries depth) (outlineEntries entries) := by
  match entries with
  | [] =>
      rw [placeEntries, outlineEntries]
      exact ⟨t, rfl, by simpa using hEnds, .refl t anchor⟩
  | (name, value) :: rest =>
      rw [placeEntries, outlineEntries_cons]
      subst hDepth
      have hRest : ∀ t' parts, t'.EndsWith anchor (done ++ parts) → t.ChangedBelow t' anchor →
          t'.Adds anchor (done ++ parts)
            (t'.placeEntries anchor rest ((t.node anchor).depth + 1)) (outlineEntries rest) := by
        intro t' parts hEnds' hChanged'
        exact adds_placeEntries rest hEnds' (by rw [hChanged'.depth_eq])
      split
      · exact (adds_place name value hEnds rfl).bind hRest
      · obtain ⟨hHolds, hEmpty, hNode, hDepth, hChanged⟩ := hEnds.create_element rfl
        have hContent := adds_place "" value hEmpty rfl
        rw [hDepth] at hContent
        have hEntry := (hContent.entry hEnds.size_eq hHolds hNode).of_changedBelow hChanged
        simpa only [create_snd, bind_assoc, pure_bind] using hEntry.bind_cons hRest
termination_by entriesWeight entries
decreasing_by
  all_goals simp only [entriesWeight]
  all_goals omega

end

/-- Whether a tree holds a forest below its root, and nothing else. -/
structure Depicts (t : Tree) (forest : List Outline) : Prop extends
    t.EndsWith root forest where
  root_eq : t.node root =
    { NodeData.document with
      firstChild := (t.node root).firstChild, lastChild := (t.node root).lastChild }

theorem endsWith_start :
    start.EndsWith root [] :=
  ⟨⟨rfl, rfl, .nil⟩, rfl⟩

/-- Building fails where the outline of the document fails, and with the same error. -/
theorem build_eq_error_of_outline_eq_error {value : Value} {e : UnsupportedKey}
    (h : value.outline = .error e) :
    build value = .error e := by
  have hAdds := adds_place "" value endsWith_start rfl
  rw [show value.outlineUnder "" = .error e from h] at hAdds
  exact hAdds

/-- Where there is an outline, building gives a tree of it. -/
theorem exists_depicts_of_outline_eq_ok {value : Value} {forest : List Outline}
    (h : value.outline = .ok forest) :
    ∃ t, build value = .ok t ∧ t.Depicts forest := by
  have hAdds := adds_place "" value endsWith_start rfl
  rw [show value.outlineUnder "" = .ok forest from h] at hAdds
  obtain ⟨t, hBuild, hEnds, hChanged⟩ := hAdds
  exact ⟨t, hBuild, hEnds, hChanged.anchor_eq⟩

/-- A tree that has been built is one of the outline. -/
theorem exists_depicts_of_build_eq_ok {value : Value} {t : Tree} (h : build value = .ok t) :
    ∃ forest, value.outline = .ok forest ∧ t.Depicts forest := by
  cases hOutline : value.outline with
  | error e =>
      rw [build_eq_error_of_outline_eq_error hOutline] at h
      cases h
  | ok forest =>
      obtain ⟨t', hBuild, hDepicts⟩ := exists_depicts_of_outline_eq_ok hOutline
      rw [hBuild] at h
      cases h
      exact ⟨forest, rfl, hDepicts⟩

/-- The nodes of a sequence of null and true. -/
def pair : Tree where
  nodes := #[
    { NodeData.document with firstChild := some 1, lastChild := some 3 },
    { NodeData.element "element" 1 with
      parent := some 0, firstChild := some 2, lastChild := some 2, nextSibling := some 3 },
    { NodeData.text .null 2 with parent := some 1 },
    { NodeData.element "element" 1 with
      parent := some 0, firstChild := some 4, lastChild := some 4, previousSibling := some 1 },
    { NodeData.text (.boolean true) 2 with parent := some 3 }]

theorem build_pair :
    build (.sequence [.scalar .null, .scalar (.boolean true)]) = .ok pair := by
  simp only [build, place, placeItems]
  rfl

end Tree

end CborPath
