import CborPath.Proofs.Document.Keys
import CborPath.Proofs.Outcome

/-!
# Unmixed content

In the outline of a document a text never has siblings: what an element holds is either the one text
of a scalar, or elements only.
-/

namespace CborPath

/-- Whether a part is an element. -/
def Outline.isElement : Outline → Bool
  | text _ _ => false
  | element _ _ => true

/-- A forest that is either one text or made of elements, and so in all of its elements. -/
inductive Unmixed : List Outline → Prop
  | text (name : String) (value : Scalar) :
      Unmixed [.text name value]
  | nil :
      Unmixed []
  | cons {name : String} {parts rest : List Outline} :
      Unmixed parts → Unmixed rest → (∀ part ∈ rest, part.isElement = true) →
        Unmixed (.element name parts :: rest)

/-- A forest of elements with unmixed content. -/
def UnmixedElements (forest : List Outline) : Prop :=
  Unmixed forest ∧ ∀ part ∈ forest, part.isElement = true

theorem unmixedElements_nil :
    UnmixedElements [] :=
  ⟨.nil, by simp⟩

theorem UnmixedElements.cons {name : String} {parts rest : List Outline} (hParts : Unmixed parts)
    (hRest : UnmixedElements rest) :
    UnmixedElements (.element name parts :: rest) := by
  refine ⟨.cons hParts hRest.1 hRest.2, fun part hPart => ?_⟩
  rcases List.mem_cons.1 hPart with rfl | hLater
  · rfl
  · exact hRest.2 part hLater

theorem UnmixedElements.append {xs ys : List Outline} (hFirst : UnmixedElements xs)
    (hRest : UnmixedElements ys) :
    UnmixedElements (xs ++ ys) := by
  obtain ⟨hUnmixed, hElements⟩ := hFirst
  induction hUnmixed with
  | text name value => cases hElements _ List.mem_cons_self
  | nil => exact hRest
  | cons hParts _ hLater _ ih => exact .cons hParts (ih hLater)

theorem Unmixed.of_element {before after parts : List Outline} {name : String}
    (h : Unmixed (before ++ .element name parts :: after)) :
    Unmixed parts := by
  induction before with
  | nil =>
      obtain _ | _ | ⟨hParts, -, -⟩ := h
      exact hParts
  | cons first before ih =>
      rw [List.cons_append] at h
      generalize hRest : before ++ .element name parts :: after = rest at h
      cases h with
      | text name value => simp at hRest
      | cons _ hUnmixed _ => exact ih (hRest ▸ hUnmixed)

/-- A text stands alone. -/
theorem Unmixed.eq_nil_of_text {before after : List Outline} {name : String} {value : Scalar}
    (h : Unmixed (before ++ .text name value :: after)) :
    before = [] ∧ after = [] := by
  cases before with
  | nil =>
      cases h
      exact ⟨rfl, rfl⟩
  | cons first before =>
      rw [List.cons_append] at h
      generalize hRest : before ++ .text name value :: after = rest at h
      cases h with
      | text name value => simp at hRest
      | cons _ _ hElements =>
          subst hRest
          cases hElements _ (List.mem_append_right _ List.mem_cons_self)

mutual

/-- The outline of a value is unmixed, and that of a sequence has elements only. -/
theorem unmixed_outlineUnder (name : String) (value : Value) :
    Yields (value.outlineUnder name) fun forest =>
      Unmixed forest ∧ (value.isSequence = true → UnmixedElements forest) := by
  match value with
  | .sequence items =>
      rw [outlineUnder_sequence]
      exact (unmixedElements_outlineItems (itemElementName name) items).mono
        fun forest h => ⟨h.1, fun _ => h⟩
  | .mapping entries =>
      rw [outlineUnder_mapping]
      cases nameEntries entries with
      | error e => exact yields_error e
      | ok named =>
          exact (unmixedElements_outlineEntries (orderedEntries entries)).mono
            fun forest h => ⟨h.1, nofun⟩
  | .scalar s =>
      rw [outlineUnder_scalar]
      exact yields_ok ⟨.text _ _, nofun⟩
termination_by sizeOf value
decreasing_by
  · simp
  · have := entriesWeight_orderedEntries entries
    simp only [Value.mapping.sizeOf_spec]
    omega

theorem unmixedElements_outlineItems (name : String) (items : List Value) :
    Yields (outlineItems name items) UnmixedElements := by
  match items with
  | [] =>
      rw [outlineItems]
      exact yields_ok unmixedElements_nil
  | item :: rest =>
      rw [outlineItems]
      refine (unmixed_outlineUnder "" item).bind fun parts hParts => ?_
      refine (unmixedElements_outlineItems name rest).bind fun others hOthers => ?_
      exact yields_ok (.cons hParts.1 hOthers)
termination_by sizeOf items

theorem unmixedElements_outlineEntries (entries : List (String × Value)) :
    Yields (outlineEntries entries) UnmixedElements := by
  match entries with
  | [] =>
      rw [outlineEntries]
      exact yields_ok unmixedElements_nil
  | (name, value) :: rest =>
      have hRest := unmixedElements_outlineEntries rest
      rw [outlineEntries_cons]
      split
      · rename_i hSequence
        refine (unmixed_outlineUnder name value).bind fun parts hParts => ?_
        refine hRest.bind fun others hOthers => ?_
        exact yields_ok ((hParts.2 hSequence).append hOthers)
      · refine (unmixed_outlineUnder "" value).bind fun parts hParts => ?_
        refine hRest.bind fun others hOthers => ?_
        exact yields_ok (.cons hParts.1 hOthers)
termination_by entriesWeight entries
decreasing_by
  all_goals simp only [entriesWeight]
  all_goals omega

end

end CborPath
