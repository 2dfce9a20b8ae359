import CborPath.Proofs.Tree.Recording
import CborPath.Proofs.Tree.Siblings

/-!
# Linking while building

Whenever a node is linked while a tree is built, it stands one level below its anchor and behind all that
the anchor holds, and it has not been linked before.  So linking always makes a last child, none of its
assertions fails, and no link is overwritten.
-/

namespace CborPath

/-- Whether a changed node still has its links to its parent, its first child and its previous sibling,
as far as it had them. -/
structure NodeData.KeepsLinks (data data' : NodeData) : Prop where
  parent : ∀ target, data.parent = some target → data'.parent = some target
  firstChild : ∀ target, data.firstChild = some target → data'.firstChild = some target
  previousSibling : ∀ target, data.previousSibling = some target → data'.previousSibling = some target

theorem NodeData.KeepsLinks.refl (data : NodeData) :
    data.KeepsLinks data :=
  ⟨fun _ h => h, fun _ h => h, fun _ h => h⟩

namespace Tree

/-- Whether no node loses one of these links. -/
def KeepsLinks (t t' : Tree) : Prop :=
  ∀ id, (t.node id).KeepsLinks (t'.node id)

/-- Links a node to its anchor, if what is asserted there holds: an anchor of the same depth has no next
sibling, and otherwise the node is one level deeper. -/
def attachAsserting? (t : Tree) (anchor node : NodeId) : Option Tree :=
  if (t.node node).depth = (t.node anchor).depth then
    if (t.node anchor).nextSibling.isNone then some (t.attach anchor node) else none
  else if (t.node anchor).depth < (t.node node).depth then
    if (t.node node).depth = (t.node anchor).depth + 1 then some (t.attach anchor node) else none
  else none

theorem attachAsserting?_of_depth_eq {t : Tree} {anchor node : NodeId}
    (h : (t.node node).depth = (t.node anchor).depth + 1) :
    t.attachAsserting? anchor node = some (t.attach anchor node) := by
  rw [attachAsserting?, if_neg (by omega), if_pos (by omega), if_pos h]

/-- Whether a node is linked for the first time, and as the last child of its anchor. -/
structure LinksFresh (t : Tree) (anchor node : Nat) : Prop where
  anchor_lt : anchor < node
  lt_size : node < t.size
  depth_eq : (t.node node).depth = (t.node anchor).depth + 1
  parent_eq : (t.node node).parent = none
  previousSibling_eq : (t.node node).previousSibling = none
  nextSibling_eq : (t.node node).nextSibling = none
  children_lt : ∀ child : Nat, child ∈ t.children anchor → child < node
  children_attach : (t.attach anchor node).children anchor = t.children anchor ++ [node]
  parent_attach : ∀ id : Nat,
    ((t.attach anchor node).node id).parent = if id = node then some anchor else (t.node id).parent

/-- The children of a node are where the parts that it holds begin. -/
theorem Holds.children_eq {t : Tree} {id : Nat} {forest : List Outline} (h : t.Holds id forest)
    (hSize : forestSize forest ≤ t.size) :
    t.children id = partPlaces (id + 1) forest := by
  have hChain := h.below.chain_next .nil
  rw [List.append_nil, ← h.firstChild] at hChain
  have hLength := Nat.le_trans (length_partPlaces_le (id + 1) forest) hSize
  generalize partPlaces (id + 1) forest = places at hChain hLength
  rw [children]
  generalize (t.node id).firstChild = first at hChain
  cases hChain with
  | nil => rfl
  | cons hRest =>
      rw [List.length_cons] at hLength
      exact congrArg _ (hRest.repeatMove_eq (by omega))

section Completes

variable {t : Tree} {anchor node : Nat} {done : List Outline} {part : Outline}
  (h : t.Completes anchor node done part)
include h

/-- Linking gives the node its parent and the sibling before it, that sibling the next one, and the anchor
its last child, and its first one if it had none. -/
theorem Completes.node_attach (id : Nat) :
    (t.attach anchor node).node id =
      { t.node id with
        parent := if id = node then some anchor else (t.node id).parent
        previousSibling :=
          if id = node then (t.node anchor).lastChild else (t.node id).previousSibling
        nextSibling :=
          if (t.node anchor).lastChild = some id then some node else (t.node id).nextSibling
        firstChild :=
          if id = anchor ∧ (t.node anchor).firstChild = none then some node
          else (t.node id).firstChild
        lastChild := if id = anchor then some node else (t.node id).lastChild } := by
  have hOwn := h.node_eq
  have hDepth : (t.node anchor).depth < (t.node node).depth := by
    rw [hOwn]
    exact Nat.lt_succ_self _
  have hPlace := h.place_eq
  have hSize := h.size_eq
  rw [Outline.size_eq] at hSize
  have hFirst := h.holds.firstChild
  have hLast := h.holds.lastChild
  rcases List.eq_nil_or_concat done with rfl | ⟨before, last, rfl⟩
  · have hFirst : (t.node anchor).firstChild = none := hFirst
    have hLast : (t.node anchor).lastChild = none := hLast
    have hAnchorNe : anchor ≠ node := by omega
    rw [node_attach_first hDepth (by omega) (by omega) hLast, hFirst, hLast]
    by_cases hIdAnchor : id = anchor
    · subst hIdAnchor
      simp [hAnchorNe]
    · by_cases hIdNode : id = node
      · subst hIdNode
        have hPrevious : (t.node id).previousSibling = none := by
          rw [hOwn]
          rfl
        simp [hIdAnchor, hPrevious]
      · simp [hIdAnchor, hIdNode]
  · rw [List.concat_eq_append, lastPlace_concat] at hLast
    rw [List.concat_eq_append, firstPlace_concat] at hFirst
    rw [List.concat_eq_append, forestSize_append, forestSize_cons] at hPlace
    rw [node_attach_next hDepth (by omega) (by omega) hLast (by omega) (by omega) (by omega), hLast]
    have hAnchorNe : anchor ≠ node := by omega
    have hLastNe : anchor + 1 + forestSize before ≠ anchor := by omega
    have hNodeNe : anchor + 1 + forestSize before ≠ node := by omega
    by_cases hIdAnchor : id = anchor
    · subst hIdAnchor
      simp [hAnchorNe, hLastNe, hFirst]
    · by_cases hIdNode : id = node
      · subst hIdNode
        simp [hIdAnchor, hNodeNe]
      · by_cases hIdLast : id = anchor + 1 + forestSize before
        · subst hIdLast
          simp [hIdNode, hIdAnchor]
        · simp [hIdAnchor, hIdNode, hIdLast, Ne.symm hIdLast]

theorem Completes.linksFresh : t.LinksFresh anchor node := by
  have hOwn := h.node_eq
  have hPlace := h.place_eq
  have hSize := h.size_eq
  rw [Outline.size_eq] at hSize
  have hChildren := h.holds.children_eq (by omega)
  obtain ⟨hEnds, -⟩ := h.attach
  have hTotal := hEnds.size_eq
  have hAttached := hEnds.toHolds.children_eq (by omega)
  refine ⟨by omega, by omega, ?_, ?_, ?_, ?_, fun child hChild => ?_, ?_, fun id => ?_⟩
  · rw [hOwn]
    rfl
  · rw [hOwn]
    rfl
  · rw [hOwn]
    rfl
  · rw [hOwn]
    rfl
  · rw [hChildren] at hChild
    have := bounds_of_mem_partPlaces hChild
    omega
  · rw [hAttached, hChildren, partPlaces_append, hPlace]
    rfl
  · rw [h.node_attach id]

/-- Linking a node for the first time leaves all links but those to last children and next siblings. -/
theorem Completes.keepsLinks_attach :
    t.KeepsLinks (t.attach anchor node) := by
  have hFresh := h.linksFresh
  intro id
  rw [h.node_attach id]
  refine ⟨fun target hTarget => ?_, fun target hTarget => ?_, fun target hTarget => ?_⟩
  · refine (if_neg ?_).trans hTarget
    rintro rfl
    rw [hFresh.parent_eq] at hTarget
    cases hTarget
  · refine (if_neg ?_).trans hTarget
    rintro ⟨rfl, hNone⟩
    rw [hNone] at hTarget
    cases hTarget
  · refine (if_neg ?_).trans hTarget
    rintro rfl
    rw [hFresh.previousSibling_eq] at hTarget
    cases hTarget

end Completes

theorem keepsLinks_create (t : Tree) (data : NodeData) :
    t.KeepsLinks (t.create data).1 := by
  intro id
  by_cases hId : id = t.size
  · -- Where no node stands, there is no link to keep.
    rw [node_of_size_le (Nat.le_of_eq hId.symm)]
    refine ⟨?_, ?_, ?_⟩ <;> rintro target ⟨⟩
  · rw [node_create_of_ne hId]
    exact .refl _

/-- Whether an action creates a node without a parent, or links a fresh node, and takes no link away. -/
def LinksOnce (t : Tree) (action : Action) : Prop :=
  t.KeepsLinks (t.perform action) ∧
    match action with
    | .create data => data.parent = none
    | .attach anchor node =>
        t.LinksFresh anchor node ∧ t.attachAsserting? anchor node = some (t.attach anchor node)

theorem linksOnce_create (t : Tree) {data : NodeData} (h : data.parent = none) :
    t.LinksOnce (.create data) :=
  ⟨keepsLinks_create t data, h⟩

theorem Completes.linksOnce {t : Tree} {anchor node : Nat} {done : List Outline} {part : Outline}
    (h : t.Completes anchor node done part) :
    t.LinksOnce (.attach anchor node) :=
  ⟨h.keepsLinks_attach, h.linksFresh, attachAsserting?_of_depth_eq h.linksFresh.depth_eq⟩

/-- Where placing a value does not fail, it adds parts to those of the anchor, and changes nothing above. -/
theorem EndsWith.of_recordPlace {name : String} {value : Value} {t t' : Tree} {anchor depth : Nat}
    {done : List Outline} (hEnds : t.EndsWith anchor done) (hDepth : depth = (t.node anchor).depth + 1)
    (hOutcome : (recordPlace anchor value name depth).outcome t = .ok t') :
    ∃ parts, t'.EndsWith anchor (done ++ parts) ∧ t.ChangedBelow t' anchor := by
  have hContent := adds_place name value hEnds hDepth
  rw [← outcome_recordPlace, hOutcome] at hContent
  cases hOutline : value.outlineUnder name with
  | error e =>
      rw [hOutline] at hContent
      cases hContent
  | ok parts =>
      rw [hOutline] at hContent
      obtain ⟨_, ⟨⟩, hAdded, hChanged⟩ := hContent
      exact ⟨parts, hAdded, hChanged⟩

-- By induction on the document.  What carries it through a run is that the parts of the anchor end the
-- tree, so that each node is created right behind them.
mutual

theorem linksOnce_recordPlace (name : String) (value : Value) {t : Tree} {anchor depth : Nat}
    {done : List Outline} (hEnds : t.EndsWith anchor done)
    (hDepth : depth = (t.node anchor).depth + 1) :
    Steps LinksOnce t ((recordPlace anchor value name depth).actions t) := by
  match value with
  | .sequence items =>
      rw [recordPlace]
      exact linksOnce_recordItems (itemElementName name) items hEnds hDepth
  | .mapping entries =>
      rw [recordPlace_mapping]
      cases nameEntries entries with
      | error e => exact trivial
      | ok named => exact linksOnce_recordEntries (orderedEntries entries) hEnds hDepth
  | .scalar s =>
      rw [recordPlace]
      subst hDepth
      have hCompletes := hEnds.completes_create _ (.text s.rendition s) rfl rfl
      exact ⟨linksOnce_create t rfl, hCompletes.linksOnce, trivial⟩
termination_by sizeOf value
decreasing_by
  · simp
  · have := entriesWeight_orderedEntries entries
    simp only [Value.mapping.sizeOf_spec]
    omega

theorem linksOnce_recordItems (name : String) (items : List Value) {t : Tree} {anchor depth : Nat}
    {done : List Outline} (hEnds : t.EndsWith anchor done)
    (hDepth : depth = (t.node anchor).depth + 1) :
    Steps LinksOnce t ((recordItems anchor items name depth).actions t) := by
  match items with
  | [] =>
      rw [recordItems]
      exact trivial
  | item :: rest =>
      rw [recordItems, Building.actions_create_bind, Building.actions_attach_bind]
      subst hDepth
      have hCompletes :=
        hEnds.completes_create (NodeData.element name _) (.element name []) rfl rfl
      refine ⟨linksOnce_create t rfl, hCompletes.linksOnce, ?_⟩
      simp only [perform]
      generalize hLinked : Tree.attach _ anchor t.size = linked
      obtain ⟨hElement, hEmpty, hDepth, hChanged⟩ := hEnds.link_element hLinked
      have hDepth' : (t.node anchor).depth + 1 + 1 = (linked.node t.size).depth + 1 := by rw [hDepth]
      refine Building.steps_bind (linksOnce_recordPlace "" item hEmpty hDepth') fun t' hOutcome => ?_
      obtain ⟨parts, hFilled, hChanged'⟩ := hEmpty.of_recordPlace hDepth' hOutcome
      have hEnds' := hElement.fill hEnds.size_eq hFilled hChanged'
      have hDepth := (hChanged.trans (hChanged'.of_lt hEnds.lt_size)).depth_eq
      exact linksOnce_recordItems name rest hEnds' (by rw [hDepth])
termination_by sizeOf items

theorem linksOnce_recordEntries (entries : List (String × Value)) {t : Tree} {anchor depth : Nat}
    {done : List Outline} (hEnds : t.EndsWith anchor done)
    (hDepth : depth = (t.node anchor).depth + 1) :
    Steps LinksOnce t ((recordEntries anchor entries depth).actions t) := by
  match entries with
  | [] =>
      rw [recordEntries]
      exact trivial
  | (name, value) :: rest =>
      rw [recordEntries]
      subst hDepth
      split
      · refine Building.steps_bind (linksOnce_recordPlace name value hEnds rfl) fun t' hOutcome => ?_
        obtain ⟨parts, hEnds', hChanged⟩ := hEnds.of_recordPlace rfl hOutcome
        exact linksOnce_recordEntries rest hEnds' (by rw [hChanged.depth_eq])
      · rw [Building.actions_create_bind]
        refine ⟨linksOnce_create t rfl, ?_⟩
        simp only [perform]
        generalize hCreated : (t.create _).1 = created
        obtain ⟨hHolds, hEmpty, hNode, hDepth, hChanged⟩ := hEnds.create_element hCreated
        have hDepth' : (t.node anchor).depth + 1 + 1 = (created.node t.size).depth + 1 := by rw [hDepth]
        refine Building.steps_bind (linksOnce_recordPlace "" value hEmpty hDepth') fun t' hOutcome => ?_
        obtain ⟨parts, hFilled, hChanged'⟩ := hEmpty.of_recordPlace hDepth' hOutcome
        -- Filling the element has left it without a parent, to be linked now.
        have hCompletes := hHolds.completes_filled hEnds.size_eq hNode hFilled hChanged'
        obtain ⟨hAttached, hBelow⟩ := hCompletes.attach
        have hDepth := ((hChanged.trans (hChanged'.of_lt hEnds.lt_size)).trans hBelow).depth_eq
        rw [Building.actions_attach_bind]
        exact ⟨hCompletes.linksOnce, linksOnce_recordEntries rest hAttached (by rw [perform, hDepth])⟩
termination_by entriesWeight entries
decreasing_by
  all_goals simp only [entriesWeight]
  all_goals omega

end

/-- The node that an action links. -/
def Action.linked? : Action → Option NodeId
  | .create _ => none
  | .attach _ node => some node

/-- The nodes that are linked, one after the other. -/
def linked (actions : List Action) : List NodeId :=
  actions.filterMap Action.linked?

section Runs

variable {t : Tree} {actions : List Action} (h : Steps LinksOnce t actions)
include h

/-- The nodes with a parent are those that had one before and those that have been linked since. -/
theorem parent_performAll_eq_none_iff (id : NodeId) :
    ((t.performAll actions).node id).parent = none ↔
      (t.node id).parent = none ∧ id ∉ linked actions := by
  induction actions generalizing t with
  | nil => simp [linked]
  | cons action actions ih =>
      obtain ⟨⟨-, hAction⟩, hActions⟩ := h
      rw [performAll_cons, ih hActions]
      cases action with
      | create data =>
          have hParent : ((t.create data).1.node id).parent = (t.node id).parent := by
            by_cases hId : id = t.size
            · rw [hId, node_create_self, node_of_size_le (Nat.le_refl _)]
              exact hAction
            · rw [node_create_of_ne hId]
          rw [perform, hParent]
          rfl
      | attach anchor node =>
          have hLinked : linked (.attach anchor node :: actions) = node :: linked actions := rfl
          rw [perform, hAction.1.parent_attach, hLinked, List.mem_cons]
          by_cases hId : id = node
          · simp [hId]
          · simp [hId]

/-- No node is linked twice, and none that has a parent already. -/
theorem nodup_linked :
    (linked actions).Nodup ∧ ∀ id ∈ linked actions, (t.node id).parent = none := by
  induction actions generalizing t with
  | nil => simp [linked]
  | cons action actions ih =>
      obtain ⟨⟨hKeeps, hAction⟩, hActions⟩ := h
      obtain ⟨hNodup, hParent⟩ := ih hActions
      have hBefore : ∀ id ∈ linked actions, (t.node id).parent = none := by
        intro id hId
        cases hOld : (t.node id).parent with
        | none => rfl
        | some target => exact ((hKeeps id).parent target hOld).symm.trans (hParent id hId)
      cases action with
      | create data => exact ⟨hNodup, hBefore⟩
      | attach anchor node =>
          have hLinked : linked (.attach anchor node :: actions) = node :: linked actions := rfl
          rw [hLinked]
          refine ⟨List.nodup_cons.2 ⟨fun hMem => ?_, hNodup⟩, ?_⟩
          · have hNone := hParent node hMem
            rw [perform, hAction.1.parent_attach, if_pos rfl] at hNone
            cases hNone
          · exact List.forall_mem_cons.2 ⟨hAction.1.parent_eq, hBefore⟩

end Runs

/-- Building links every node but the root once, and each for the first time: one level below its anchor,
behind the children that the anchor has, and with a greater place than all of them. -/
theorem linksOnce_record (value : Value) :
    (record value).outcome start = build value ∧
      Steps LinksOnce start ((record value).actions start) ∧
      (linked ((record value).actions start)).Nodup ∧
      ∀ t, build value = .ok t →
        ∀ id : Nat, id ∈ linked ((record value).actions start) ↔ 0 < id ∧ id < t.size := by
  have hSteps : Steps LinksOnce start ((record value).actions start) :=
    linksOnce_recordPlace "" value endsWith_start rfl
  refine ⟨outcome_record value, hSteps, (nodup_linked hSteps).1, fun t hBuild id => ?_⟩
  obtain ⟨forest, -, hDepicts⟩ := exists_depicts_of_build_eq_ok hBuild
  rw [← outcome_record] at hBuild
  have hStart : (start.node id).parent = none := by
    rcases Nat.eq_zero_or_pos id with rfl | hPos
    · rfl
    · rw [node_of_size_le hPos]
      rfl
  have hLinked : (t.node id).parent = none ↔ id ∉ linked ((record value).actions start) := by
    rw [← Building.performAll_of_outcome hBuild, parent_performAll_eq_none_iff hSteps]
    exact and_iff_right hStart
  rw [← not_iff_not, ← hLinked]
  constructor
  · rintro hNone ⟨hPos, hId⟩
    obtain ⟨parent, before, part, after, hSited⟩ := hDepicts.exists_sited hPos hId
    rw [hSited.parent_eq] at hNone
    cases hNone
  · intro hOutside
    rcases Nat.eq_zero_or_pos id with rfl | hPos
    · exact hDepicts.parent_root
    · rw [node_of_size_le (Nat.le_of_not_lt fun hId => hOutside ⟨hPos, hId⟩)]
      rfl

theorem linksOnce_record_pair :
    build (.sequence [.scalar .null, .scalar (.boolean true)]) = .ok pair ∧
      ∀ id : Nat,
        id ∈ linked ((record (.sequence [.scalar .null, .scalar (.boolean true)])).actions start) ↔
          0 < id ∧ id < 5 :=
  ⟨build_pair, (linksOnce_record _).2.2.2 pair build_pair⟩

end Tree

end CborPath
