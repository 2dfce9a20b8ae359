import CborPath.Proofs.Tree.Order
import Mathlib.Data.List.Forall2

/-!
# Enumeration

The parts of a forest, each before the parts below it, are in the order of their nodes: the places
after a node, up to the end of its run, hold the nodes of all parts of what the node holds, one after
the other.  What nodes are counted by their kinds, names and scalars can be read off the forest.
-/

namespace CborPath

mutual

/-- A part and all parts below it, each before those below it. -/
def Outline.subparts : Outline → List Outline
  | .text name value => [.text name value]
  | .element name parts => .element name parts :: forestSubparts parts

/-- The parts of a forest and all parts below them, each before those below it. -/
def forestSubparts : List Outline → List Outline
  | [] => []
  | part :: rest => part.subparts ++ forestSubparts rest

end

@[simp] theorem forestSubparts_nil :
    forestSubparts [] = [] := by
  rw [forestSubparts]

theorem Outline.subparts_eq (part : Outline) :
    part.subparts = part :: forestSubparts part.parts := by
  cases part with
  | text name value => rw [subparts, parts, forestSubparts_nil]
  | element name parts => rw [subparts, Outline.parts]

theorem forestSubparts_cons (part : Outline) (rest : List Outline) :
    forestSubparts (part :: rest) =
      part :: (forestSubparts part.parts ++ forestSubparts rest) := by
  rw [forestSubparts, Outline.subparts_eq, List.cons_append]

theorem forestSubparts_append (xs ys : List Outline) :
    forestSubparts (xs ++ ys) = forestSubparts xs ++ forestSubparts ys := by
  induction xs with
  | nil => rw [forestSubparts_nil, List.nil_append, List.nil_append]
  | cons part rest ih =>
      rw [List.cons_append, forestSubparts, ih, forestSubparts, List.append_assoc]

/-- What a test keeps of two lists that are related element by element, if it cannot tell related
elements apart. -/
theorem map_filter_of_forall₂ {α β γ : Type} {R : α → β → Prop} {p : α → Bool} {q : β → Bool}
    {f : α → γ} {g : β → γ} {xs : List α} {ys : List β} (h : List.Forall₂ R xs ys)
    (hAlike : ∀ x y, R x y → p x = q y ∧ f x = g y) :
    (xs.filter p).map f = (ys.filter q).map g := by
  induction h with
  | nil => rfl
  | @cons x y xs ys hRelated _ ih =>
      obtain ⟨hTest, hValue⟩ := hAlike x y hRelated
      rw [List.filter_cons, List.filter_cons, hTest]
      split
      · rw [List.map_cons, List.map_cons, hValue, ih]
      · exact ih

namespace Tree

/-- Whether a part has its node at a place. -/
def Bears (t : Tree) (id : Nat) (part : Outline) : Prop :=
  ∃ parent before after, t.Sited id parent before part after

section Bears

variable {t : Tree} {id : Nat} {part : Outline} (h : t.Bears id part)
include h

theorem Bears.kind_eq :
    (t.node id).kind = part.kind := by
  obtain ⟨parent, before, after, hSited⟩ := h
  rw [hSited.node_eq]
  rfl

theorem Bears.name_eq :
    (t.node id).name = part.name := by
  obtain ⟨parent, before, after, hSited⟩ := h
  rw [hSited.node_eq]
  rfl

theorem Bears.value_eq :
    (t.node id).value = part.value := by
  obtain ⟨parent, before, after, hSited⟩ := h
  rw [hSited.node_eq]
  rfl

theorem Bears.spans :
    t.Spans id part.parts := by
  obtain ⟨parent, before, after, hSited⟩ := h
  exact hSited.spans_parts

end Bears

/-- The last parts of what a node holds, and all parts below them, have their nodes one after the
other. -/
theorem Spans.forall₂_bears_append {t : Tree} {id start : Nat} {before forest : List Outline}
    (h : t.Spans id (before ++ forest)) (hStart : start = id + 1 + forestSize before) :
    List.Forall₂ t.Bears (List.range' start (forestSize forest)) (forestSubparts forest) := by
  match forest with
  | [] =>
      rw [forestSize_nil, forestSubparts_nil]
      exact .nil
  | part :: rest =>
      have hSited : t.Sited start id before part rest := ⟨h, hStart⟩
      have hInner : t.Spans start ([] ++ part.parts) := hSited.spans_parts
      have hParts := hInner.forall₂_bears_append rfl
      rw [List.append_cons] at h
      have hRest := h.forall₂_bears_append rfl
      have hPlace : start + 1 + forestSize part.parts = id + 1 + forestSize (before ++ [part]) := by
        rw [forestSize_append, forestSize_cons, forestSize_nil, hStart]
        omega
      rw [← hPlace] at hRest
      rw [forestSize_nil, Nat.add_zero] at hParts
      rw [forestSubparts_cons, forestSize_cons, Nat.add_right_comm, List.range'_succ,
        ← List.range'_append_1]
      exact .cons ⟨id, before, rest, hSited⟩ (List.rel_append hParts hRest)
termination_by forestSize forest
decreasing_by
  · simp only [forestSize_cons]
    omega
  · simp only [forestSize_cons]
    omega

/-- All parts of what a node holds have their nodes at the places after it. -/
theorem Spans.forall₂_bears {t : Tree} {id : Nat} {forest : List Outline} (h : t.Spans id forest) :
    List.Forall₂ t.Bears (List.range' (id + 1) (forestSize forest)) (forestSubparts forest) := by
  have hAll : t.Spans id ([] ++ forest) := h
  exact hAll.forall₂_bears_append rfl

/-- The places of a run, after that of the node itself. -/
theorem Spans.range'_stop {t : Tree} {id : Nat} {forest : List Outline} (h : t.Spans id forest) :
    List.range' id (t.stop id - id) = id :: List.range' (id + 1) (forestSize forest) := by
  have hLength : t.stop id - id = forestSize forest + 1 := by
    rw [h.stop_eq]
    omega
  rw [hLength, List.range'_succ]

end Tree

end CborPath
