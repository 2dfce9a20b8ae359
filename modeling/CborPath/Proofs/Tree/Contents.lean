import CborPath.Proofs.Tree.Origins
import CborPath.Proofs.Tree.Text
import CborPath.Proofs.Tree.WellFormed

/-!
# Contents

Two views of what a node of a built tree says agree.  Its text, gathered by going down the links, is
what the text nodes of its run say in the order of their places.  Its content, found at its first child
alone, is the scalar of any text that it is or that stands below it, since a text never has siblings;
and the text of a node with a content is the rendition of that scalar.  The element that is made for an
item or an entry with a scalar has this scalar as its content.
-/

namespace CborPath

/-- The text of a forest is that of its text parts, in order. -/
theorem forestText_eq_join (forest : List Outline) :
    forestText forest =
      String.join (((forestSubparts forest).filter fun part => part.kind = .text).map
        Outline.name) := by
  match forest with
  | [] =>
      rw [forestText, forestSubparts_nil]
      rfl
  | .text name value :: rest =>
      have hRest := forestText_eq_join rest
      rw [forestText, Outline.innerText, forestSubparts_cons, hRest, ← String.join_cons]
      rfl
  | .element name parts :: rest =>
      have hParts := forestText_eq_join parts
      have hRest := forestText_eq_join rest
      rw [forestText, Outline.innerText, forestSubparts_cons, hParts, hRest, List.filter_cons,
        if_neg (by simp [Outline.kind]), List.filter_append, List.map_append, String.join_append]
      rfl

namespace Tree

/-- The text nodes of a run, in the order of their places. -/
def textPlaces (t : Tree) (id : NodeId) : List NodeId :=
  (List.range' id (t.stop id - id)).filter fun m => (t.node m).kind = .text

/-- A node with the scalar of a text: the text itself, or an element above it. -/
def ShowsScalar (t : Tree) (id : NodeId) (s : Scalar) : Prop :=
  ((t.node id).kind = .text ∧ (t.node id).value = some s) ∨
    ((t.node id).kind = .element ∧
      ∃ child ∈ t.children id, (t.node child).kind = .text ∧ (t.node child).value = some s)

section Depicts

variable {t : Tree} {all forest : List Outline} {id : Nat}

/-- A text holds nothing. -/
theorem Depicts.eq_nil_of_text (h : t.Depicts all) (hSpans : t.Spans id forest)
    (hKind : (t.node id).kind = .text) :
    forest = [] := by
  have hPos : 0 < id := by
    rcases Nat.eq_zero_or_pos id with rfl | hPos
    · rw [h.node_root] at hKind
      cases hKind
    · exact hPos
  obtain ⟨_, _, part, _, hSited⟩ := h.exists_sited hPos hSpans.lt_size
  have hFirst := hSpans.firstChild
  rw [hSited.node_eq] at hKind hFirst
  cases part with
  | text name value =>
      cases forest with
      | nil => rfl
      | cons first rest => cases hFirst
  | element name parts => cases hKind

/-- The text of a node is what the text nodes of its run say. -/
theorem Depicts.innerText_eq_join (h : t.Depicts all) (hId : id < t.size) :
    t.innerText id = String.join ((t.textPlaces id).map fun m => (t.node m).name) := by
  obtain ⟨forest, hSpans⟩ := h.exists_spans hId
  have hBelow : ((List.range' (id + 1) (forestSize forest)).filter fun m =>
      (t.node m).kind = .text).map (fun m => (t.node m).name) =
        ((forestSubparts forest).filter fun part => part.kind = .text).map Outline.name :=
    map_filter_of_forall₂ hSpans.forall₂_bears fun m part hBears => by
      rw [hBears.kind_eq, hBears.name_eq]
      exact ⟨rfl, rfl⟩
  rw [textPlaces, hSpans.range'_stop, List.filter_cons, hSpans.innerText_eq]
  by_cases hKind : (t.node id).kind = .text
  · have hNil := h.eq_nil_of_text hSpans hKind
    subst hNil
    rw [if_pos hKind, if_pos (decide_eq_true hKind), forestSize_nil]
    simp
  · rw [if_neg hKind, if_neg (by simpa using hKind), hBelow, forestText_eq_join]

/-- The content of a node is the scalar of a text that it is or that stands below it. -/
theorem Depicts.content?_eq_some_iff (h : t.Depicts all) (hUnmixed : Unmixed all)
    (hId : id < t.size) (s : Scalar) :
    t.content? id = some s ↔ t.ShowsScalar id s := by
  obtain ⟨forest, hSpans⟩ := h.exists_spans hId
  have hContent := hSpans.content?_eq
  rw [ShowsScalar]
  cases hKind : (t.node id).kind with
  | document => simp [hContent, hKind]
  | text => simp [hContent, hKind]
  | element =>
      simp only [reduceCtorEq, false_and, true_and, false_or, hSpans.children_eq]
      constructor
      · intro hSome
        rw [hContent, hKind] at hSome
        -- The element holds one part, and that is a text.
        obtain _ | ⟨⟨name, value⟩ | ⟨name, inner⟩, _ | ⟨second, rest⟩⟩ := forest <;> cases hSome
        have hSited : t.Sited (id + 1) id [] (.text name s) [] := ⟨hSpans, rfl⟩
        refine ⟨id + 1, List.mem_cons_self, ?_, ?_⟩
        · rw [hSited.node_eq]
          rfl
        · rw [hSited.node_eq]
          rfl
      · rintro ⟨child, hMem, hText, hValue⟩
        obtain ⟨parent, name, value, hSited⟩ := h.exists_sited_of_text hUnmixed hText
        have hParent := (h.mem_partPlaces_iff_parent_eq hSpans).1 hMem
        rw [hSited.parent_eq] at hParent
        cases hParent
        rw [hSited.node_eq] at hValue
        rw [hSited.spans.content?_eq, hKind]
        exact hValue

/-- What is made for an origin has its node at the place that the order of the origins tells. -/
theorem Depicts.exists_part_of_origin (h : t.Depicts all) {origins : List Origin}
    (hMade : AllMade origins all) {i : Nat} {origin : Origin} (hOrigin : origins[i]? = some origin) :
    ∃ part, t.Bears (i + 1) part ∧ origin.Makes part := by
  have hBears := h.spans.forall₂_bears
  obtain ⟨hIndex, rfl⟩ := List.getElem?_eq_some_iff.1 hOrigin
  have hPart : i < (forestSubparts all).length := hMade.length_eq ▸ hIndex
  have hPlace : i < (List.range' (0 + 1) (forestSize all)).length := hBears.length_eq ▸ hPart
  have hHere := hBears.get hPlace hPart
  simp only [List.get_eq_getElem, List.getElem_range', Nat.one_mul, Nat.zero_add] at hHere
  rw [Nat.add_comm] at hHere
  exact ⟨_, hHere, hMade.get hIndex hPart⟩

end Depicts

/-- What a node of a tree that has been built says.  Its text is that of the text nodes in its run, in
the order of their places.  It has a content exactly if it is a text or an element above one, and then
its text is the rendition of that scalar.  After the root there is one node for each origin in the
document, in order; the element for an item or for an entry with a scalar has this scalar as its
content, and every item and every such entry that is reached in the document has its element. -/
theorem contents_of_build {value : Value} {t : Tree} (hBuild : build value = .ok t) :
    (∀ n : Nat, n < t.size →
      t.innerText n = String.join ((t.textPlaces n).map fun m => (t.node m).name) ∧
      (∀ s, t.content? n = some s ↔ t.ShowsScalar n s) ∧
      ∀ s, t.content? n = some s → t.innerText n = s.rendition) ∧
    t.size = (value.origins "").length + 1 ∧
    (∀ (i : Nat) (name : String) (held : Value),
      (value.origins "")[i]? = some (.element name held) →
        (t.node (i + 1)).kind = .element ∧ (t.node (i + 1)).name = name ∧
        ∀ s, held = .scalar s → t.content? (i + 1) = some s) ∧
    (∀ items item, value.Reaches (.sequence items) → item ∈ items →
      ∃ (i : Nat) (name : String), (value.origins "")[i]? = some (.element name item)) ∧
    ∀ entries key s, value.Reaches (.mapping entries) → (key, .scalar s) ∈ entries →
      ∃ (i : Nat) (name : String), key.elementName = .ok name ∧
        (value.origins "")[i]? = some (.element name (.scalar s)) := by
  obtain ⟨forest, hOutline, hDepicts⟩ := exists_depicts_of_build_eq_ok hBuild
  have hUnmixed := (unmixed_outlineUnder "" value forest hOutline).1
  have hMade := allMade_outlineUnder "" value forest hOutline
  have hBears := hDepicts.spans.forall₂_bears
  refine ⟨fun n hId => ⟨hDepicts.innerText_eq_join hId,
    hDepicts.content?_eq_some_iff hUnmixed hId, fun s hContent => ?_⟩, ?_, ?_, ?_, ?_⟩
  · have hLeaf := hDepicts.mem_forestLeaves_of_content?_eq_some hContent
    exact (renders_outlineUnder "" value forest hOutline _ hLeaf).2
  · rw [hMade.length_eq, ← hBears.length_eq, List.length_range']
    have hSize : t.size = 0 + 1 + forestSize forest := hDepicts.size_eq
    omega
  · intro i name held hOrigin
    obtain ⟨part, hPart, parts, rfl, hHeld⟩ := hDepicts.exists_part_of_origin hMade hOrigin
    refine ⟨hPart.kind_eq, hPart.name_eq, fun s hScalar => ?_⟩
    subst hScalar
    rw [outlineUnder_scalar] at hHeld
    cases hHeld
    rw [hPart.spans.content?_eq, hPart.kind_eq]
    rfl
  · intro items item hReaches hMem
    obtain ⟨name, hOrigin⟩ := hReaches.exists_origin_of_item hMem ""
    obtain ⟨i, hi⟩ := List.mem_iff_getElem?.1 hOrigin
    exact ⟨i, name, hi⟩
  · intro entries key s hReaches hMem
    obtain ⟨i, hi⟩ := List.mem_iff_getElem?.1 (hReaches.origin_of_entry hMem rfl "")
    have hKeys := (failsAtFirst_build value).exists_eq_ok_iff.1 ⟨t, hBuild⟩
    have hKey := (firstUnsupported_keysMet_eq_none_iff value).1 hKeys entries hReaches _ hMem
    exact ⟨i, _, elementName_eq_of_namesElement hKey, hi⟩

theorem contents_of_build_pair :
    build (.sequence [.scalar .null, .scalar (.boolean true)]) = .ok pair ∧
      ((Value.sequence [.scalar .null, .scalar (.boolean true)]).origins "")[2]? =
        some (.element "element" (.scalar (.boolean true))) ∧
      pair.content? 3 = some (.boolean true) ∧
      pair.innerText 3 = "true" ∧
      pair.innerText 0 = String.join ((pair.textPlaces 0).map fun m => (pair.node m).name) := by
  obtain ⟨hNodes, -, hElements, -, -⟩ := contents_of_build build_pair
  have hOrigin : ((Value.sequence [.scalar .null, .scalar (.boolean true)]).origins "")[2]? =
      some (.element "element" (.scalar (.boolean true))) := by
    simp only [Value.origins, itemOrigins]
    rfl
  have hContent := (hElements 2 _ _ hOrigin).2.2 _ rfl
  exact ⟨build_pair, hOrigin, hContent, (hNodes 3 (by decide)).2.2 _ hContent,
    (hNodes 0 (by decide)).1⟩

end Tree

end CborPath
