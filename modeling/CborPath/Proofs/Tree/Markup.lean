import CborPath.Proofs.Tree.Tags
import CborPath.Proofs.Tree.Contents
import Mathlib.Data.List.Chain

/-!
# Markup of trees

The markup of a node is a walk over the nodes of its run: into and out of every element and past every
text.  Its angle brackets are those of the tags, whatever the names are, so the walk can be read off
the markup, and two trees with the same markup look the same.
-/

namespace CborPath

/-- A moment of a walk over nodes. -/
inductive Visit
  | enter (id : NodeId)
  | leave (id : NodeId)
  | text (id : NodeId)
  deriving DecidableEq, Repr

/-- Whether a node is met for the first time. -/
def Visit.isEntry : Visit → Bool
  | leave _ => false
  | _ => true

theorem Visit.filter_isEntry_element (id : NodeId) (visits : List Visit) :
    (enter id :: (visits ++ [leave id])).filter isEntry = enter id :: visits.filter isEntry := by
  rw [List.filter_cons_of_pos rfl, List.filter_append, List.filter_cons_of_neg Bool.false_ne_true,
    List.filter_nil, List.append_nil]

/-- Whether two marks are not both texts. -/
def Mark.Apart (mark other : Mark) : Prop :=
  ¬(mark.isText = true ∧ other.isText = true)

/-- Between the tags of an element, marks stay as they are. -/
theorem Mark.isChain_element (name : String) {marks : List Mark} (h : marks.IsChain Apart) :
    (opening name :: (marks ++ [closing name])).IsChain Apart := by
  rw [List.isChain_cons, List.isChain_append]
  refine ⟨fun mark _ hBoth => absurd hBoth.1 Bool.false_ne_true, h, .singleton _, ?_⟩
  intro mark _ other hOther hBoth
  cases hOther
  exact absurd hBoth.2 Bool.false_ne_true

/-- In an unmixed forest no text follows another. -/
theorem Unmixed.isChain_forestMarks {forest : List Outline} (h : Unmixed forest) :
    (forestMarks forest).IsChain Mark.Apart := by
  induction h with
  | text name value => exact .singleton _
  | nil => exact .nil
  | @cons name parts rest _ _ _ ihParts ihRest =>
      rw [forestMarks, List.isChain_append]
      exact ⟨Mark.isChain_element name ihParts, ihRest, fun mark hMark other _ hBoth => by
        rw [Outline.marks, ← List.cons_append, List.getLast?_concat] at hMark
        cases hMark
        exact absurd hBoth.1 Bool.false_ne_true⟩

namespace Tree

/-- How a node is met for the first time. -/
def entry (t : Tree) (id : NodeId) : Visit :=
  if (t.node id).kind = .text then .text id else .enter id

/-- The mark that a walk makes. -/
def mark (t : Tree) : Visit → Mark
  | .enter id => .opening (t.node id).name
  | .leave id => .closing (t.node id).name
  | .text id => .text (t.node id).name

/-- The walk over a node and what is below it down to the given depth. -/
def walkWithin (t : Tree) : Nat → NodeId → List Visit
  | 0, _ => []
  | bound + 1, id =>
      let content := (t.children id).flatMap (walkWithin t bound)
      match (t.node id).kind with
      | .text => [.text id]
      | .element => .enter id :: (content ++ [.leave id])
      | .document => content

/-- The walk over a node and everything below it. -/
def walk (t : Tree) (id : NodeId) : List Visit :=
  t.walkWithin t.size id

theorem toList_markupWithin (t : Tree) (bound : Nat) (id : NodeId) :
    (t.markupWithin bound id).toList =
      ((t.walkWithin bound id).map t.mark).flatMap Mark.written := by
  induction bound generalizing id with
  | zero => rfl
  | succ bound ih =>
      have hContent : (String.join ((t.children id).map (t.markupWithin bound))).toList =
          (((t.children id).flatMap (t.walkWithin bound)).map t.mark).flatMap Mark.written := by
        rw [String.toList_join, List.flatMap_map, List.map_flatMap, List.flatMap_assoc]
        exact List.flatMap_congr fun child _ => ih child
      rw [markupWithin, walkWithin]
      cases (t.node id).kind with
      | text => simp [mark, Mark.written]
      | element => simp [mark, Mark.written, hContent]
      | document => exact hContent

theorem toList_textWithin (t : Tree) (bound : Nat) (id : NodeId) :
    (t.textWithin bound id).toList = ((t.walkWithin bound id).map t.mark).flatMap Mark.said := by
  induction bound generalizing id with
  | zero => rfl
  | succ bound ih =>
      have hContent : (String.join ((t.children id).map (t.textWithin bound))).toList =
          (((t.children id).flatMap (t.walkWithin bound)).map t.mark).flatMap Mark.said := by
        rw [String.toList_join, List.flatMap_map, List.map_flatMap, List.flatMap_assoc]
        exact List.flatMap_congr fun child _ => ih child
      rw [textWithin, walkWithin]
      cases (t.node id).kind with
      | text => simp [mark, Mark.said]
      | element => simp [mark, Mark.said, hContent]
      | document => simp [hContent]

end Tree

mutual

/-- The walk over a part that begins at a place. -/
def Outline.visits (start : Nat) : Outline → List Visit
  | .text _ _ => [.text start]
  | .element _ parts => .enter start :: (forestVisits (start + 1) parts ++ [.leave start])

/-- The walk over a forest that begins at a place. -/
def forestVisits (start : Nat) : List Outline → List Visit
  | [] => []
  | part :: rest => part.visits start ++ forestVisits (start + part.size) rest

end

namespace Tree

section Lays

variable {t : Tree} {parent : NodeId} {depth start : Nat} {previous next : Option NodeId}
  {forest : List Outline}

/-- The walk over a layout makes the marks of the forest. -/
theorem Lays.map_mark_forestVisits (h : t.Lays parent depth previous next start forest) :
    (forestVisits start forest).map t.mark = forestMarks forest := by
  induction h with
  | nil => rfl
  | @cons parent depth previous next start part rest hOwn _ _ ihParts ihRest =>
      rw [forestVisits, List.map_append, ihRest, forestMarks]
      cases part with
      | text name value => simp [Outline.visits, Outline.marks, mark, hOwn, Outline.node, Outline.name]
      | element name parts =>
          have hInner : (forestVisits (start + 1) parts).map t.mark = forestMarks parts := ihParts
          simp [Outline.visits, Outline.marks, mark, hOwn, Outline.node, Outline.name, hInner]

/-- The walk over a layout meets the nodes in the order of their places. -/
theorem Lays.filter_isEntry_forestVisits (h : t.Lays parent depth previous next start forest) :
    (forestVisits start forest).filter Visit.isEntry =
      ((List.range' start (forestSize forest)).filter fun m =>
        (t.node m).kind ≠ .document).map t.entry := by
  induction h with
  | nil => rfl
  | @cons parent depth previous next start part rest hOwn _ _ ihParts ihRest =>
      rw [forestVisits, List.filter_append, ihRest, forestSize, ← List.range'_append_1,
        List.filter_append, List.map_append]
      congr 1
      rw [Outline.size_eq, List.range'_succ, List.filter_cons_of_pos, List.map_cons, entry, hOwn]
      · cases part with
        | text name value => rfl
        | element name parts =>
            rw [Outline.visits, Visit.filter_isEntry_element]
            exact congrArg (Visit.enter start :: ·) ihParts
      · rw [hOwn]
        cases part <;> rfl

end Lays

/-- Within a bound that no part exceeds, the last parts of what a node holds are walked over at their
places. -/
theorem Spans.flatMap_walkWithin_append {t : Tree} {id start : Nat} (bound : Nat)
    {before forest : List Outline} (h : t.Spans id (before ++ forest))
    (hStart : start = id + 1 + forestSize before) (hBound : forestSize forest ≤ bound) :
    (partPlaces start forest).flatMap (t.walkWithin bound) = forestVisits start forest := by
  match forest with
  | [] => rw [partPlaces, forestVisits, List.flatMap_nil]
  | part :: rest =>
      have hSited : t.Sited start id before part rest := ⟨h, hStart⟩
      have hInner : t.Spans start ([] ++ part.parts) := hSited.spans_parts
      have hPlace : start + part.size = id + 1 + forestSize (before ++ [part]) := by
        rw [forestSize_append, forestSize_cons, forestSize_nil, Outline.size_eq, hStart]
        omega
      rw [forestSize_cons] at hBound
      rw [List.append_cons] at h
      have hRest := h.flatMap_walkWithin_append bound hPlace (by omega)
      obtain ⟨less, rfl⟩ : ∃ less, bound = less + 1 := ⟨bound - 1, by omega⟩
      have hParts := hInner.flatMap_walkWithin_append less rfl (by omega)
      rw [forestSize_nil, Nat.add_zero] at hParts
      rw [partPlaces, List.flatMap_cons, hRest, forestVisits]
      congr 1
      rw [walkWithin, hInner.children_eq, List.nil_append, hParts, hSited.node_eq]
      cases part <;> rfl
termination_by forestSize forest
decreasing_by
  all_goals
    simp only [forestSize_cons]
    omega

section Spans

variable {t : Tree} {id : Nat} {forest : List Outline} (h : t.Spans id forest)
include h

theorem Spans.flatMap_walk :
    (t.children id).flatMap t.walk = forestVisits (id + 1) forest := by
  have hAll : t.Spans id ([] ++ forest) := h
  have hSize := h.forestSize_le
  have hBelow := hAll.flatMap_walkWithin_append t.size rfl (by omega)
  rw [forestSize_nil, Nat.add_zero] at hBelow
  rw [h.children_eq]
  exact hBelow

/-- The walk over a node goes over its children. -/
theorem Spans.walk_eq :
    t.walk id =
      match (t.node id).kind with
      | .text => [.text id]
      | .element => .enter id :: ((t.children id).flatMap t.walk ++ [.leave id])
      | .document => (t.children id).flatMap t.walk := by
  have hAll : t.Spans id ([] ++ forest) := h
  have hSize := h.forestSize_le
  obtain ⟨bound, hBound⟩ : ∃ bound, t.size = bound + 1 := ⟨t.size - 1, by omega⟩
  have hBelow := hAll.flatMap_walkWithin_append bound rfl (by omega)
  rw [forestSize_nil, Nat.add_zero] at hBelow
  rw [h.flatMap_walk, walk, hBound, walkWithin, h.children_eq, hBelow]

/-- The marks of the walk over a node, by what it holds. -/
theorem Spans.map_mark_walk :
    (t.walk id).map t.mark =
      match (t.node id).kind with
      | .text => [.text (t.node id).name]
      | .element => .opening (t.node id).name :: (forestMarks forest ++ [.closing (t.node id).name])
      | .document => forestMarks forest := by
  rw [h.walk_eq, h.flatMap_walk]
  cases (t.node id).kind <;> simp [mark, h.below.map_mark_forestVisits]

end Spans

section Depicts

variable {t : Tree} {all : List Outline} {id : Nat} (h : t.Depicts all)
include h

/-- The walk over a node meets the nodes of its run in the order of their places. -/
theorem Depicts.filter_isEntry_walk (hId : id < t.size) :
    (t.walk id).filter Visit.isEntry =
      ((List.range' id (t.stop id - id)).filter fun m => (t.node m).kind ≠ .document).map t.entry := by
  obtain ⟨forest, hSpans⟩ := h.exists_spans hId
  have hBelow := hSpans.below.filter_isEntry_forestVisits
  rw [hSpans.walk_eq, hSpans.flatMap_walk, hSpans.range'_stop]
  cases hKind : (t.node id).kind with
  | document => simpa [List.filter_cons, hKind] using hBelow
  | element =>
      dsimp only
      rw [Visit.filter_isEntry_element, hBelow]
      simp [hKind, entry]
  | text =>
      obtain rfl := h.eq_nil_of_text hSpans hKind
      simp [List.filter_cons, hKind, entry, Visit.isEntry]

/-- What a node holds is unmixed. -/
theorem Depicts.exists_unmixed_spans (hUnmixed : Unmixed all) (hId : id < t.size) :
    ∃ forest, t.Spans id forest ∧ Unmixed forest := by
  rcases Nat.eq_zero_or_pos id with rfl | hPos
  · exact ⟨all, h.spans, hUnmixed⟩
  · obtain ⟨_, _, part, _, hSited, hWhole⟩ := h.spans.exists_sited Unmixed
      (fun _ _ _ => Unmixed.parts) hUnmixed hPos (by rwa [h.stop_root])
    exact ⟨part.parts, hSited.spans_parts, hWhole.parts⟩

/-- No text follows another in the walk over a node. -/
theorem Depicts.isChain_walk (hUnmixed : Unmixed all) (hId : id < t.size) :
    ((t.walk id).map t.mark).IsChain Mark.Apart := by
  obtain ⟨forest, hSpans, hForest⟩ := h.exists_unmixed_spans hUnmixed hId
  rw [hSpans.map_mark_walk]
  cases (t.node id).kind with
  | text => exact .singleton _
  | element => exact Mark.isChain_element _ hForest.isChain_forestMarks
  | document => exact hForest.isChain_forestMarks

/-- The markup of the document is that of its outline. -/
theorem Depicts.outputXml_root :
    ∃ body : String, t.outputXml root = xmlDeclaration ++ "<root>" ++ body ++ "</root>" ∧
      Cut.outside? body.toList = some (Mark.cut (forestMarks all)) := by
  have hKind : (t.node root).kind = .document := congrArg NodeData.kind h.node_root
  have hMarks : (t.walk root).map t.mark = forestMarks all := by
    have hSpans : t.Spans root all := h.spans
    rw [hSpans.map_mark_walk, hKind]
  refine ⟨t.markupWithin t.size root, if_pos hKind, ?_⟩
  rw [toList_markupWithin, ← walk, hMarks, Mark.outside?_flatMap_written]

/-- If no element has a name that begins with a slash, this can be told from the outline. -/
theorem Depicts.noSlashes (hNames : ∀ m : Nat, m < t.size → (t.node m).kind = .element →
      (t.node m).name.toList.head? ≠ some '/') :
    NoSlashes all := by
  intro part hPart hElement
  have hBears := h.spans.forall₂_bears
  obtain ⟨i, hIndex, rfl⟩ := List.mem_iff_getElem.1 hPart
  have hPlace : i < (List.range' (0 + 1) (forestSize all)).length := hBears.length_eq ▸ hIndex
  have hHere := hBears.get hPlace hIndex
  have hKind : (forestSubparts all)[i].kind = .element := by
    cases hPartEq : (forestSubparts all)[i] with
    | text name value =>
        rw [hPartEq] at hElement
        cases hElement
    | element name parts => rfl
  have hName := hNames _ hHere.spans.lt_size (hHere.kind_eq.trans hKind)
  rwa [hHere.name_eq] at hName

end Depicts

/-- The markup of a tree that has been built cannot be forged by what the document says.  That of a
node, without the declaration and the root element around that of the document, is cut at its angle
brackets into the tags of the elements and the escaped names of the texts that the walk over the node
meets; the walk meets the nodes of the run in the order of their places, and no text follows another in
it.  Without the tags, and read back, the markup is the text of the node.  Two documents without names
that begin with a slash have the same markup only if they look the same, but for empty texts. -/
theorem markup_of_build {value : Value} {t : Tree} (hBuild : build value = .ok t) :
    (∀ n : Nat, n < t.size →
      ∃ body : String,
        t.outputXml n =
          (if (t.node n).kind = .document then xmlDeclaration ++ "<root>" ++ body ++ "</root>"
          else body) ∧
        Cut.outside? body.toList = some (Mark.cut ((t.walk n).map t.mark)) ∧
        unescaped (Mark.cut ((t.walk n).map t.mark)).between = (t.innerText n).toList) ∧
    (∀ n : Nat, n < t.size →
      t.walk n =
        (match (t.node n).kind with
        | .text => [.text n]
        | .element => .enter n :: ((t.children n).flatMap t.walk ++ [.leave n])
        | .document => (t.children n).flatMap t.walk) ∧
      (t.walk n).filter Visit.isEntry =
        ((List.range' n (t.stop n - n)).filter fun m => (t.node m).kind ≠ .document).map t.entry ∧
      ((t.walk n).map t.mark).IsChain Mark.Apart) ∧
    (∀ n : Nat, (t.node n).kind = .text →
      ∃ s, (t.node n).value = some s ∧ (t.node n).name = s.rendition) ∧
    ∀ value' t', build value' = .ok t' →
      (∀ n : Nat, n < t.size → (t.node n).kind = .element →
        (t.node n).name.toList.head? ≠ some '/') →
      (∀ n : Nat, n < t'.size → (t'.node n).kind = .element →
        (t'.node n).name.toList.head? ≠ some '/') →
      t.outputXml root = t'.outputXml root →
        forestShown t.outline = forestShown t'.outline := by
  obtain ⟨forest, hOutline, hDepicts⟩ := exists_depicts_of_build_eq_ok hBuild
  have hUnmixed := (unmixed_outlineUnder "" value forest hOutline).1
  refine ⟨fun n hId => ?_, fun n hId => ?_, fun n hKind => ?_, ?_⟩
  · refine ⟨t.markupWithin t.size n, rfl, ?_, ?_⟩
    · rw [toList_markupWithin, ← walk, Mark.outside?_flatMap_written]
    · rw [Mark.unescaped_between_cut, innerText, toList_textWithin, walk]
  · obtain ⟨held, hSpans⟩ := hDepicts.exists_spans hId
    exact ⟨hSpans.walk_eq, hDepicts.filter_isEntry_walk hId, hDepicts.isChain_walk hUnmixed hId⟩
  · obtain ⟨parent, name, s, hSited⟩ := hDepicts.exists_sited_of_text hUnmixed hKind
    have hValue : (t.node n).value = some s := congrArg NodeData.value hSited.node_eq
    have hContent : t.content? n = some s := by rw [hSited.spans_parts.content?_eq, hKind, hValue]
    have hLeaf := hDepicts.mem_forestLeaves_of_content?_eq_some hContent
    have hText := (renders_outlineUnder "" value forest hOutline _ hLeaf).2
    rw [hSited.spans_parts.innerText_eq, if_pos hKind] at hText
    exact ⟨s, hValue, hText⟩
  · intro value' t' hBuild' hNames hNames' hSame
    obtain ⟨forest', hOutline', hDepicts'⟩ := exists_depicts_of_build_eq_ok hBuild'
    have hUnmixed' := (unmixed_outlineUnder "" value' forest' hOutline').1
    obtain ⟨body, hBody, hCut⟩ := hDepicts.outputXml_root
    obtain ⟨body', hBody', hCut'⟩ := hDepicts'.outputXml_root
    rw [hBody, hBody', ← String.toList_inj] at hSame
    simp only [String.toList_append, List.append_cancel_right_eq, List.append_cancel_left_eq] at hSame
    rw [hSame, hCut'] at hCut
    have hEqual : Mark.cut (forestMarks forest ++ []) = Mark.cut (forestMarks forest' ++ []) := by
      rw [List.append_nil, List.append_nil]
      exact (Option.some.inj hCut).symm
    rw [hDepicts.outline_eq, hDepicts'.outline_eq]
    exact (Mark.forestShown_eq_of_cut_eq hUnmixed' (hDepicts'.noSlashes hNames') Mark.closes_nil
      Mark.closes_nil hEqual hUnmixed (hDepicts.noSlashes hNames)).1

/-- The nodes of a sequence of an empty sequence and the text `true`. -/
def lookalike : Tree where
  nodes := #[
    { NodeData.document with firstChild := some 1, lastChild := some 2 },
    { NodeData.element "element" 1 with parent := some 0, nextSibling := some 2 },
    { NodeData.element "element" 1 with
      parent := some 0, firstChild := some 3, lastChild := some 3, previousSibling := some 1 },
    { NodeData.text (.text "true") 2 with parent := some 2 }]

theorem build_lookalike :
    build (.sequence [.sequence [], .scalar (.text "true")]) = .ok lookalike := by
  simp only [build, place, placeItems]
  rfl

theorem markup_of_build_pair :
    build (.sequence [.scalar .null, .scalar (.boolean true)]) = .ok pair ∧
      build (.sequence [.sequence [], .scalar (.text "true")]) = .ok lookalike ∧
      (pair.walk 3).map pair.mark = [.opening "element", .text "true", .closing "element"] ∧
      unescaped (Mark.cut ((pair.walk 3).map pair.mark)).between = (pair.innerText 3).toList ∧
      pair.outputXml root = lookalike.outputXml root ∧
      forestShown pair.outline = forestShown lookalike.outline := by
  obtain ⟨hMarkup, -, -, hAlike⟩ := markup_of_build build_pair
  have hNames : ∀ n : Nat, n < pair.size → (pair.node n).kind = .element →
      (pair.node n).name.toList.head? ≠ some '/' := by
    decide
  have hNames' : ∀ n : Nat, n < lookalike.size → (lookalike.node n).kind = .element →
      (lookalike.node n).name.toList.head? ≠ some '/' := by
    decide
  have hSame : pair.outputXml root = lookalike.outputXml root := by
    decide +kernel
  obtain ⟨_, -, -, hText⟩ := hMarkup 3 (by decide)
  exact ⟨build_pair, build_lookalike, by decide, hText, hSame,
    hAlike _ lookalike build_lookalike hNames hNames' hSame⟩

end Tree

end CborPath
