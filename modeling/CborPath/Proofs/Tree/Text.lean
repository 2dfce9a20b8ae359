import CborPath.Proofs.Document.Leaves
import CborPath.Proofs.Tree.Reading

/-!
# Texts and contents

What a node of a built tree says by itself: its text and its content.  Both depend on nothing but the
node's own kind, name and value and on the forest that it holds.
-/

namespace CborPath

mutual

/-- The names of all texts of a part, one after the other. -/
def Outline.innerText : Outline → String
  | .text name _ => name
  | .element _ parts => forestText parts

/-- The names of all texts of a forest, one after the other. -/
def forestText : List Outline → String
  | [] => ""
  | part :: rest => part.innerText ++ forestText rest

end

/-- The scalar of a forest that is one text and nothing else. -/
def forestContent? : List Outline → Option Scalar
  | [part] => part.value
  | _ => none

theorem join_map_innerText (forest : List Outline) :
    String.join (forest.map Outline.innerText) = forestText forest := by
  induction forest with
  | nil => rw [forestText]; rfl
  | cons part rest ih => rw [List.map_cons, String.join_cons, ih, forestText]

namespace Tree

section Spans

variable {t : Tree} {id bound : Nat} {forest : List Outline}

/-- Within a bound that exceeds what a node holds, its text is that of its forest, unless it is a text
itself. -/
theorem Spans.textWithin_eq (h : t.Spans id forest) (hBound : forestSize forest < bound)
    (hKind : (t.node id).kind ≠ .text) :
    t.textWithin bound id = forestText forest := by
  induction bound generalizing id forest with
  | zero => exact absurd hBound (Nat.not_lt_zero _)
  | succ bound ih =>
      rw [textWithin, if_neg hKind, h.children_eq, ← join_map_innerText]
      refine congrArg _ (map_partPlaces fun before part after hForest => ?_)
      subst hForest
      have hSited : t.Sited (id + 1 + forestSize before) id before part after := ⟨h, rfl⟩
      have hNode := hSited.node_eq
      rw [forestSize_append, forestSize_cons] at hBound
      cases part with
      | text name value =>
          obtain ⟨bound, rfl⟩ : ∃ less, bound = less + 1 := ⟨bound - 1, by omega⟩
          rw [textWithin, if_pos (by rw [hNode]; rfl), hNode]
          rfl
      | element name parts =>
          have hParts := ih hSited.spans_parts (by omega) (by rw [hNode]; nofun)
          rwa [Outline.innerText]

theorem Spans.innerText_eq (h : t.Spans id forest) :
    t.innerText id = if (t.node id).kind = .text then (t.node id).name else forestText forest := by
  have hSize := h.forestSize_le
  split
  · rename_i hText
    obtain ⟨bound, hBound⟩ : ∃ bound, t.size = bound + 1 := ⟨t.size - 1, by omega⟩
    rw [innerText, hBound, textWithin, if_pos hText]
  · rename_i hOther
    exact h.textWithin_eq (by omega) hOther

theorem Spans.content?_eq (h : t.Spans id forest) :
    t.content? id =
      match (t.node id).kind with
      | .text => (t.node id).value
      | .element => forestContent? forest
      | .document => none := by
  rw [content?]
  cases (t.node id).kind with
  | document => rfl
  | text => rfl
  | element =>
      rw [h.firstChild]
      cases forest with
      | nil => rfl
      | cons part rest =>
          have hSited : t.Sited (id + 1) id [] part rest := ⟨h, rfl⟩
          simp only [firstPlace]
          rw [hSited.node_eq]
          cases rest with
          | nil => cases part <;> rfl
          | cons sibling others => cases part <;> rfl

end Spans

/-- The scalar of a node is that of a leaf whose text is the node's text. -/
theorem Depicts.mem_forestLeaves_of_content?_eq_some {t : Tree} {all : List Outline}
    (h : t.Depicts all) {n : Nat} {s : Scalar} (hContent : t.content? n = some s) :
    (t.innerText n, s) ∈ forestLeaves all := by
  have hId : n < t.size := by
    rcases Nat.lt_or_ge n t.size with hLt | hGe
    · exact hLt
    · rw [content?, node_of_size_le hGe] at hContent
      cases hContent
  have hPos : 0 < n := by
    rcases Nat.eq_zero_or_pos n with rfl | hPos
    · rw [content?, h.node_root] at hContent
      cases hContent
    · exact hPos
  have hPass : ∀ before part after,
      (∀ leaf ∈ forestLeaves (before ++ part :: after), leaf ∈ forestLeaves all) →
      ∀ leaf ∈ forestLeaves part.parts, leaf ∈ forestLeaves all := by
    intro before part after hWhole leaf hLeaf
    cases part with
    | text name value =>
        rw [Outline.parts, forestLeaves] at hLeaf
        cases hLeaf
    | element name parts => exact hWhole leaf (mem_forestLeaves_of_mem_leaves hLeaf)
  obtain ⟨parent, before, part, after, hSited, hWhole⟩ :=
    h.spans.exists_sited (fun forest => ∀ leaf ∈ forestLeaves forest, leaf ∈ forestLeaves all)
      hPass (fun _ hLeaf => hLeaf) hPos (by rwa [h.stop_root])
  refine hWhole _ (mem_forestLeaves_of_mem_leaves ?_)
  rw [hSited.spans_parts.content?_eq, hSited.node_eq] at hContent
  rw [hSited.spans_parts.innerText_eq, hSited.node_eq]
  cases part with
  | text name value =>
      cases hContent
      exact List.mem_singleton_self _
  | element name parts =>
      -- The element holds one part, and that is a text.
      obtain _ | ⟨⟨other, value⟩ | ⟨other, inner⟩, _ | ⟨second, rest⟩⟩ := parts <;> cases hContent
      simp [Outline.leaves, forestLeaves, Outline.node, Outline.kind, Outline.parts, forestText,
        Outline.innerText]

end Tree

end CborPath
