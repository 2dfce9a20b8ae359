import CborPath.Proofs.Document.Content
import CborPath.Proofs.Tree.Enumeration
import CborPath.Proofs.Tree.Escaping

/-!
# Tags

A text is cut at its angle brackets into tags and what stands between them.  What is written for a
forest is cut into the tags of its elements and the escaped names of its texts, and from that the
forest can be told, but for texts with an empty name, as long as no element has a name that looks like
the inside of a closing tag.
-/

namespace CborPath

/-- A text with its tags told apart: what stands before the first tag, and each tag's inside with what
stands between it and the next. -/
@[ext] structure Cut where
  lead : List Char
  tags : List (List Char × List Char)
  deriving DecidableEq, Repr

namespace Cut

/-- The text between the tags. -/
def between (cut : Cut) : List Char :=
  cut.lead ++ cut.tags.flatMap Prod.snd

mutual

/-- Cuts a text at its tags, from outside any tag.  There is no cut if brackets do not alternate. -/
def outside? : List Char → Option Cut
  | [] => some ⟨[], []⟩
  | c :: rest =>
      if c = '<' then (inside? rest).map fun found => ⟨[], (found.1, found.2.lead) :: found.2.tags⟩
      else if c = '>' then none
      else (outside? rest).map fun cut => ⟨c :: cut.lead, cut.tags⟩

/-- The rest of the inside of a tag, and the cut of what follows the tag. -/
def inside? : List Char → Option (List Char × Cut)
  | [] => none
  | c :: rest =>
      if c = '>' then (outside? rest).map fun cut => ([], cut)
      else if c = '<' then none
      else (inside? rest).map fun found => (c :: found.1, found.2)

end

/-- Text without brackets stands before what follows it. -/
theorem outside?_append {s : List Char} (h : s.any Tree.isBracket = false) (rest : List Char) :
    outside? (s ++ rest) = (outside? rest).map fun cut => ⟨s ++ cut.lead, cut.tags⟩ := by
  induction s with
  | nil => simp
  | cons c s ih =>
      rw [List.any_cons, Bool.or_eq_false_iff] at h
      obtain ⟨hOpening, hClosing⟩ : c ≠ '<' ∧ c ≠ '>' := by simpa [Tree.isBracket] using h.1
      rw [List.cons_append, outside?, if_neg hOpening, if_neg hClosing, ih h.2, Option.map_map]
      rfl

/-- Text without brackets inside a tag. -/
theorem inside?_append {s : List Char} (h : s.any Tree.isBracket = false) (rest : List Char) :
    inside? (s ++ '>' :: rest) = (outside? rest).map fun cut => (s, cut) := by
  induction s with
  | nil => simp [inside?]
  | cons c s ih =>
      rw [List.any_cons, Bool.or_eq_false_iff] at h
      obtain ⟨hOpening, hClosing⟩ : c ≠ '<' ∧ c ≠ '>' := by simpa [Tree.isBracket] using h.1
      rw [List.cons_append, inside?, if_neg hClosing, if_neg hOpening, ih h.2, Option.map_map]
      rfl

/-- A tag and what follows it. -/
theorem outside?_tag {s : List Char} (h : s.any Tree.isBracket = false) (rest : List Char) :
    outside? ('<' :: (s ++ '>' :: rest)) =
      (outside? rest).map fun cut => ⟨[], (s, cut.lead) :: cut.tags⟩ := by
  rw [outside?, if_pos rfl, inside?_append h, Option.map_map]
  rfl

end Cut

/-- What is written in markup: the tags of elements and the texts between them, by their names. -/
inductive Mark
  | opening (name : String)
  | closing (name : String)
  | text (name : String)
  deriving DecidableEq, Repr

namespace Mark

open CborPath.Tree (escaped openingTag closingTag)

/-- The text of a mark. -/
def written : Mark → List Char
  | opening name => (openingTag name).toList
  | closing name => (closingTag name).toList
  | text name => (escaped name).toList

/-- Whether a mark is a text. -/
def isText : Mark → Bool
  | text _ => true
  | _ => false

/-- What a mark says between the tags. -/
def said : Mark → List Char
  | text name => name.toList
  | _ => []

/-- The cut that some marks make: an opening tag has the escaped name inside, a closing tag a slash and
the escaped name, and between the tags are escaped texts. -/
def cut : List Mark → Cut
  | [] => ⟨[], []⟩
  | opening name :: rest => ⟨[], ((escaped name).toList, (cut rest).lead) :: (cut rest).tags⟩
  | closing name :: rest => ⟨[], ('/' :: (escaped name).toList, (cut rest).lead) :: (cut rest).tags⟩
  | text name :: rest => ⟨(escaped name).toList ++ (cut rest).lead, (cut rest).tags⟩

/-- What is written for some marks is cut into just these marks. -/
theorem outside?_flatMap_written (marks : List Mark) :
    Cut.outside? (marks.flatMap written) = some (cut marks) := by
  induction marks with
  | nil => rw [List.flatMap_nil, Cut.outside?, cut]
  | cons mark rest ih =>
      rw [List.flatMap_cons]
      cases mark with
      | opening name =>
          have hWritten : written (opening name) ++ rest.flatMap written =
              '<' :: ((escaped name).toList ++ '>' :: rest.flatMap written) := by
            simp [written, openingTag]
          rw [hWritten, Cut.outside?_tag (Tree.any_isBracket_escaped name), ih, cut]
          rfl
      | closing name =>
          have hWritten : written (closing name) ++ rest.flatMap written =
              '<' :: ('/' :: (escaped name).toList ++ '>' :: rest.flatMap written) := by
            simp [written, closingTag]
          have hInside : ('/' :: (escaped name).toList).any Tree.isBracket = false := by
            rw [List.any_cons, Tree.any_isBracket_escaped]
            rfl
          rw [hWritten, Cut.outside?_tag hInside, ih, cut]
          rfl
      | text name =>
          rw [written, Cut.outside?_append (Tree.any_isBracket_escaped name), ih, cut]
          rfl

/-- Without the tags, and read back, marks say what their texts say. -/
theorem unescaped_between_cut (marks : List Mark) :
    Tree.unescaped (cut marks).between = marks.flatMap said := by
  have hBetween : (cut marks).between = (marks.flatMap said).flatMap Tree.escapedChar := by
    induction marks with
    | nil => rfl
    | cons mark rest ih =>
        rw [List.flatMap_cons, List.flatMap_append, ← ih, Cut.between, Cut.between]
        cases mark <;> simp [cut, said, Tree.toList_escaped]
  rw [hBetween, Tree.unescaped_flatMap]

end Mark

mutual

/-- The marks of a part. -/
def Outline.marks : Outline → List Mark
  | .text name _ => [.text name]
  | .element name parts => .opening name :: (forestMarks parts ++ [.closing name])

/-- The marks of a forest. -/
def forestMarks : List Outline → List Mark
  | [] => []
  | part :: rest => part.marks ++ forestMarks rest

end

/-- What can be seen of a part in markup: an element, or a text that is not empty. -/
inductive Shown
  | text (s : String)
  | element (name : String) (parts : List Shown)

mutual

/-- What can be seen of a part. -/
def Outline.shown : Outline → List Shown
  | .text name _ => if name = "" then [] else [.text name]
  | .element name parts => [.element name (forestShown parts)]

/-- What can be seen of a forest. -/
def forestShown : List Outline → List Shown
  | [] => []
  | part :: rest => part.shown ++ forestShown rest

end

/-- Whether no element of a forest, at any depth, has a name that begins with a slash. -/
def NoSlashes (forest : List Outline) : Prop :=
  ∀ part ∈ forestSubparts forest, part.isElement = true → part.name.toList.head? ≠ some '/'

theorem noSlashes_cons_iff {name : String} {parts rest : List Outline} :
    NoSlashes (.element name parts :: rest) ↔
      name.toList.head? ≠ some '/' ∧ NoSlashes parts ∧ NoSlashes rest := by
  rw [NoSlashes, forestSubparts_cons, List.forall_mem_cons, List.forall_mem_append]
  exact and_congr_left' (forall_prop_of_true rfl)

namespace Mark

/-- Whether some marks are none, or go on with a closing tag. -/
def Closes : List Mark → Prop
  | [] => True
  | mark :: _ => ∃ name, mark = .closing name

theorem closes_nil : Closes [] :=
  trivial

theorem Closes.lead_eq_nil {marks : List Mark} (h : Closes marks) :
    (cut marks).lead = [] := by
  cases marks with
  | nil => rfl
  | cons mark rest =>
      obtain ⟨name, rfl⟩ := h
      rfl

/-- The tag that closes is told from one that opens by its slash. -/
theorem Closes.tags_ne_cons {marks : List Mark} (h : Closes marks) {name : String}
    (hName : name.toList.head? ≠ some '/') (after : List Char) (tags : List (List Char × List Char)) :
    (cut marks).tags ≠ ((Tree.escaped name).toList, after) :: tags := by
  cases marks with
  | nil => exact nofun
  | cons mark rest =>
      obtain ⟨other, rfl⟩ := h
      intro hEq
      have hInside : '/' :: (Tree.escaped other).toList = (Tree.escaped name).toList :=
        congrArg Prod.fst (List.cons.inj hEq).1
      refine hName (Tree.head?_escaped_eq_slash_iff.1 ?_)
      rw [← hInside]
      rfl

theorem cut_eq_of_tags_eq {marks others : List Mark} (h : Closes marks) (hOthers : Closes others)
    (hTags : (cut marks).tags = (cut others).tags) :
    cut marks = cut others :=
  Cut.ext (h.lead_eq_nil.trans hOthers.lead_eq_nil.symm) hTags

theorem cut_element_append (name : String) (parts forest : List Outline) (rest : List Mark) :
    cut (forestMarks (.element name parts :: forest) ++ rest) =
      ⟨[], ((Tree.escaped name).toList,
          (cut (forestMarks parts ++ .closing name :: (forestMarks forest ++ rest))).lead) ::
        (cut (forestMarks parts ++ .closing name :: (forestMarks forest ++ rest))).tags⟩ := by
  rw [forestMarks, Outline.marks, List.cons_append, List.cons_append, List.append_assoc,
    List.append_assoc, List.singleton_append, cut]

/-- Whether a forest shows as the text `s` alone, which may be empty. -/
def ShowsText (forest : List Outline) (s : String) : Prop :=
  forestShown forest = (if s = "" then [] else [.text s]) ∧
    ∀ rest, Closes rest →
      cut (forestMarks forest ++ rest) = ⟨(Tree.escaped s).toList, (cut rest).tags⟩

theorem showsText_text (name : String) (value : Scalar) : ShowsText [.text name value] name := by
  refine ⟨?_, fun rest hRest => ?_⟩
  · rw [forestShown, forestShown, Outline.shown, List.append_nil]
  · rw [forestMarks, forestMarks, Outline.marks, List.append_nil, List.singleton_append, cut,
      hRest.lead_eq_nil, List.append_nil]

theorem showsText_nil : ShowsText [] "" := by
  refine ⟨?_, fun rest hRest => ?_⟩
  · rw [forestShown, if_pos rfl]
  · rw [forestMarks, List.nil_append]
    exact congrArg (Cut.mk · (cut rest).tags) hRest.lead_eq_nil

/-- An unmixed forest shows as one text, or begins with an element. -/
theorem unmixed_cases {forest : List Outline} (h : Unmixed forest) :
    (∃ s, ShowsText forest s) ∨
      ∃ name parts later, forest = .element name parts :: later ∧ Unmixed parts ∧ Unmixed later := by
  cases h with
  | text name value => exact .inl ⟨name, showsText_text name value⟩
  | nil => exact .inl ⟨"", showsText_nil⟩
  | cons hParts hLater _ => exact .inr ⟨_, _, _, rfl, hParts, hLater⟩

section Pairs

variable {forest others : List Outline} {rest more : List Mark}
variable (hOthers : Unmixed others) (hOtherNames : NoSlashes others)
variable (hRest : Closes rest) (hMore : Closes more)
variable (h : cut (forestMarks forest ++ rest) = cut (forestMarks others ++ more))

include hOthers hOtherNames hRest hMore h

/-- A forest that shows as a text is told from its cut. -/
theorem ShowsText.forestShown_eq_of_cut_eq {s : String} (hForest : ShowsText forest s) :
    forestShown forest = forestShown others ∧ cut rest = cut more := by
  obtain ⟨s', hShown, hCut⟩ | ⟨name, parts, later, rfl, -, -⟩ := unmixed_cases hOthers
  · rw [hForest.2 rest hRest, hCut more hMore] at h
    obtain ⟨hLead, hTags⟩ := Cut.mk.inj h
    have hText := Tree.escaped_injective hLead
    exact ⟨by rw [hForest.1, hShown, hText], cut_eq_of_tags_eq hRest hMore hTags⟩
  · rw [hForest.2 rest hRest, cut_element_append] at h
    have hName := (noSlashes_cons_iff.1 hOtherNames).1
    exact absurd (congrArg Cut.tags h) (hRest.tags_ne_cons hName _ _)

/-- From the cut of its marks a forest can be told, as far as it is seen, and so can the cut of what
follows.  The tags pair off: at the same place in both, an element begins in both or in neither. -/
theorem forestShown_eq_of_cut_eq (hForest : Unmixed forest) (hNames : NoSlashes forest) :
    forestShown forest = forestShown others ∧ cut rest = cut more := by
  induction hForest generalizing others rest more with
  | text name value =>
      exact (showsText_text name value).forestShown_eq_of_cut_eq hOthers hOtherNames hRest hMore h
  | nil => exact showsText_nil.forestShown_eq_of_cut_eq hOthers hOtherNames hRest hMore h
  | @cons name parts later hParts hLater _ ihParts ihLater =>
      obtain ⟨s, hText⟩ | ⟨name', parts', later', rfl, hParts', hLater'⟩ := unmixed_cases hOthers
      · rw [hText.2 more hMore, cut_element_append] at h
        have hName := (noSlashes_cons_iff.1 hNames).1
        exact absurd (congrArg Cut.tags h).symm (hMore.tags_ne_cons hName _ _)
      · rw [cut_element_append, cut_element_append] at h
        obtain ⟨hTag, hTags⟩ := List.cons.inj (Cut.mk.inj h).2
        obtain ⟨hInside, hLead⟩ := Prod.mk.inj hTag
        obtain rfl := Tree.escaped_injective hInside
        obtain ⟨-, hPartNames, hLaterNames⟩ := noSlashes_cons_iff.1 hNames
        obtain ⟨-, hPartNames', hLaterNames'⟩ := noSlashes_cons_iff.1 hOtherNames
        have hCloses : ∀ marks, Closes (.closing name :: marks) := fun _ => ⟨name, rfl⟩
        obtain ⟨hPartsShown, hClosing⟩ := ihParts hParts' hPartNames' (hCloses _) (hCloses _)
          (Cut.ext hLead hTags) hPartNames
        rw [cut, cut] at hClosing
        obtain ⟨hAfter, hAfterTags⟩ := List.cons.inj (Cut.mk.inj hClosing).2
        obtain ⟨hLaterShown, hEnd⟩ := ihLater hLater' hLaterNames' hRest hMore
          (Cut.ext (Prod.mk.inj hAfter).2 hAfterTags) hLaterNames
        refine ⟨?_, hEnd⟩
        rw [forestShown, forestShown, Outline.shown, Outline.shown, hPartsShown, hLaterShown]

end Pairs

end Mark

end CborPath
