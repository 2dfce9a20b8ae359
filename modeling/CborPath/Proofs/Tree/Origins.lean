import CborPath.Proofs.Document.Keys
import CborPath.Proofs.Outcome
import CborPath.Proofs.Tree.Enumeration

/-!
# Origins

What the nodes of a document stand for, in the order in which they are created: an element for each
item of a sequence and for each entry of a mapping that holds no sequence, and a text for each scalar.
Every item and every such entry that is reached in the document has an element of its own, and the
parts of the outline come from just these, one after the other.
-/

namespace CborPath

/-- What a node below the root is made for: an item or the value of an entry, held by an element of
the given name, or a scalar. -/
inductive Origin
  | element (name : String) (held : Value)
  | text (s : Scalar)

mutual

/-- What the nodes of a value stand for.  The name is that of the mapping entry that holds it, if
any. -/
def Value.origins (name : String) (value : Value) : List Origin :=
  match value with
  | .sequence items => itemOrigins (if name = "" then "element" else name) items
  | .mapping entries => entryOrigins (orderedEntries entries)
  | .scalar s => [.text s]
termination_by sizeOf value
decreasing_by
  · simp
  · have := entriesWeight_orderedEntries entries
    simp only [Value.mapping.sizeOf_spec]
    omega

/-- An element for each item, and what is in it. -/
def itemOrigins (name : String) (items : List Value) : List Origin :=
  match items with
  | [] => []
  | item :: rest => .element name item :: item.origins "" ++ itemOrigins name rest
termination_by sizeOf items

/-- An element for each entry, and what is in it, but the items of a sequence directly. -/
def entryOrigins (entries : List (String × Value)) : List Origin :=
  match entries with
  | [] => []
  | (name, value) :: rest =>
      if value.isSequence then value.origins name ++ entryOrigins rest
      else .element name value :: value.origins "" ++ entryOrigins rest
termination_by entriesWeight entries
decreasing_by
  all_goals simp only [entriesWeight]
  all_goals omega

end

section Reaching

theorem origins_sequence (name : String) (items : List Value) :
    (Value.sequence items).origins name = itemOrigins (itemElementName name) items := by
  rw [Value.origins, itemElementName_eq]

theorem origins_mapping (name : String) (entries : List (Value × Value)) :
    (Value.mapping entries).origins name = entryOrigins (orderedEntries entries) := by
  rw [Value.origins]

theorem subset_itemOrigins {name : String} {items : List Value} {item : Value}
    (h : item ∈ items) :
    .element name item :: item.origins "" ⊆ itemOrigins name items := by
  induction items with
  | nil => cases h
  | cons first rest ih =>
      rw [itemOrigins]
      rcases List.mem_cons.1 h with rfl | hLater
      · exact List.subset_append_left _ _
      · exact List.Subset.trans (ih hLater) (List.subset_append_right _ _)

theorem subset_entryOrigins {entries : List (String × Value)} {name : String} {value : Value}
    (h : (name, value) ∈ entries) :
    (if value.isSequence then value.origins name
      else .element name value :: value.origins "") ⊆ entryOrigins entries := by
  induction entries with
  | nil => cases h
  | cons first rest ih =>
      obtain ⟨other, inner⟩ := first
      rw [entryOrigins]
      rcases List.mem_cons.1 h with hEq | hLater
      · cases hEq
        split
        · exact List.subset_append_left _ _
        · exact List.subset_append_left _ _
      · refine List.Subset.trans (ih hLater) ?_
        split
        · exact List.subset_append_right _ _
        · exact List.subset_append_right _ _

/-- The entries of a mapping are all there when they have been named and sorted. -/
theorem mem_orderedEntries {entries : List (Value × Value)} {key value : Value}
    (h : (key, value) ∈ entries) :
    (key.elementNameD, value) ∈ orderedEntries entries := by
  rw [orderedEntries, (sortEntries_perm _).mem_iff]
  exact List.mem_map.2 ⟨_, h, rfl⟩

/-- What is reached in a value contributes its origins, under some name. -/
theorem Value.Reaches.exists_origins_subset {value part : Value} (h : value.Reaches part)
    (name : String) :
    ∃ partName, part.origins partName ⊆ value.origins name := by
  induction h generalizing name with
  | refl value => exact ⟨name, List.Subset.refl _⟩
  | item hMem _ ih =>
      obtain ⟨partName, hPart⟩ := ih ""
      refine ⟨partName, List.Subset.trans hPart ?_⟩
      rw [origins_sequence]
      exact List.Subset.trans (List.subset_cons_self _ _) (subset_itemOrigins hMem)
  | @entry entries key value part hMem _ ih =>
      obtain ⟨partName, hPart⟩ := ih (if value.isSequence then key.elementNameD else "")
      have hEntry := subset_entryOrigins (mem_orderedEntries hMem)
      refine ⟨partName, List.Subset.trans hPart ?_⟩
      rw [origins_mapping]
      refine List.Subset.trans ?_ hEntry
      split
      · exact List.Subset.refl _
      · exact List.subset_cons_self _ _

variable {value held : Value}

/-- Every item that is reached has an element. -/
theorem Value.Reaches.exists_origin_of_item {items : List Value}
    (h : value.Reaches (.sequence items)) (hMem : held ∈ items) (name : String) :
    ∃ elementName, .element elementName held ∈ value.origins name := by
  obtain ⟨partName, hPart⟩ := h.exists_origins_subset name
  rw [origins_sequence] at hPart
  exact ⟨_, hPart (subset_itemOrigins hMem List.mem_cons_self)⟩

/-- Every entry that is reached and holds no sequence has an element with the name of its key. -/
theorem Value.Reaches.origin_of_entry {entries : List (Value × Value)} {key : Value}
    (h : value.Reaches (.mapping entries)) (hMem : (key, held) ∈ entries)
    (hHeld : held.isSequence = false) (name : String) :
    .element key.elementNameD held ∈ value.origins name := by
  obtain ⟨partName, hPart⟩ := h.exists_origins_subset name
  have hEntry := subset_entryOrigins (mem_orderedEntries hMem)
  rw [origins_mapping] at hPart
  rw [if_neg (by simp [hHeld])] at hEntry
  exact hPart (hEntry List.mem_cons_self)

end Reaching

/-- Whether a part of an outline is made for something in the document. -/
def Origin.Makes (origin : Origin) (part : Outline) : Prop :=
  match origin with
  | element name held => ∃ parts, part = .element name parts ∧ held.outlineUnder "" = .ok parts
  | text s => part = .text s.rendition s

/-- Whether some parts are made for some things in the document, one after the other. -/
def AllMade (origins : List Origin) (forest : List Outline) : Prop :=
  List.Forall₂ Origin.Makes origins (forestSubparts forest)

theorem allMade_nil :
    AllMade [] [] := by
  rw [AllMade, forestSubparts_nil]
  exact .nil

theorem AllMade.append {origins others : List Origin} {xs ys : List Outline}
    (h : AllMade origins xs) (hOthers : AllMade others ys) :
    AllMade (origins ++ others) (xs ++ ys) := by
  rw [AllMade, forestSubparts_append]
  exact List.rel_append h hOthers

/-- An element with all that it holds. -/
theorem AllMade.cons {origins others : List Origin} {name : String} {held : Value}
    {parts rest : List Outline} (hHeld : held.outlineUnder "" = .ok parts)
    (hParts : AllMade origins parts) (hRest : AllMade others rest) :
    AllMade (.element name held :: origins ++ others) (.element name parts :: rest) := by
  rw [AllMade, forestSubparts_cons, List.cons_append]
  exact .cons ⟨parts, rfl, hHeld⟩ (List.rel_append hParts hRest)

/-- An element for a value, and what follows it. -/
theorem yields_allMade_cons {origins others : List Origin} {name : String} {held : Value}
    {outline : Except UnsupportedKey (List Outline)}
    (hHeld : Yields (held.outlineUnder "") (AllMade origins))
    (hOutline : Yields outline (AllMade others)) :
    Yields (held.outlineUnder "" >>= fun parts =>
        outline >>= fun rest => pure (.element name parts :: rest))
      (AllMade (.element name held :: origins ++ others)) := by
  intro forest hForest
  obtain ⟨parts, hParts, hForest⟩ := bind_eq_ok_iff.1 hForest
  obtain ⟨rest, hRest, hForest⟩ := bind_eq_ok_iff.1 hForest
  cases hForest
  exact (hHeld parts hParts).cons hParts (hOutline rest hRest)

mutual

/-- The parts of a value's outline, and those below them, are made for what the value holds. -/
theorem allMade_outlineUnder (name : String) (value : Value) :
    Yields (value.outlineUnder name) (AllMade (value.origins name)) := by
  match value with
  | .sequence items =>
      rw [outlineUnder_sequence, origins_sequence]
      exact allMade_outlineItems (itemElementName name) items
  | .mapping entries =>
      rw [outlineUnder_mapping, origins_mapping]
      exact yields_bind fun _ => allMade_outlineEntries (orderedEntries entries)
  | .scalar s =>
      rw [outlineUnder_scalar, Value.origins]
      refine yields_ok ?_
      rw [AllMade, forestSubparts_cons, Outline.parts, forestSubparts_nil]
      exact .cons rfl .nil
termination_by sizeOf value
decreasing_by
  · simp
  · have := entriesWeight_orderedEntries entries
    simp only [Value.mapping.sizeOf_spec]
    omega

theorem allMade_outlineItems (name : String) (items : List Value) :
    Yields (outlineItems name items) (AllMade (itemOrigins name items)) := by
  match items with
  | [] =>
      rw [outlineItems, itemOrigins]
      exact yields_ok allMade_nil
  | item :: rest =>
      have hRest := allMade_outlineItems name rest
      rw [outlineItems, itemOrigins]
      exact yields_allMade_cons (allMade_outlineUnder "" item) hRest
termination_by sizeOf items

theorem allMade_outlineEntries (entries : List (String × Value)) :
    Yields (outlineEntries entries) (AllMade (entryOrigins entries)) := by
  match entries with
  | [] =>
      rw [outlineEntries, entryOrigins]
      exact yields_ok allMade_nil
  | (name, value) :: rest =>
      have hRest := allMade_outlineEntries rest
      rw [outlineEntries_cons, entryOrigins]
      split
      · refine (allMade_outlineUnder name value).bind fun parts hParts => ?_
        exact hRest.bind fun others hOthers => yields_ok (hParts.append hOthers)
      · exact yields_allMade_cons (allMade_outlineUnder "" value) hRest
termination_by entriesWeight entries
decreasing_by
  all_goals simp only [entriesWeight]
  all_goals omega

end

end CborPath
