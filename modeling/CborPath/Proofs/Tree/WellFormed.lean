import CborPath.Proofs.Document.Content
import CborPath.Proofs.Tree.Ancestry

/-!
# Well-formed trees

What every tree that has been built satisfies, whatever its document: the root is the only document
node, links lead to nodes, depths count parents, the two lists of the children of a node are each
other's reverse and complete, the nodes at and below a node fill one run of places, and a text is the
only thing below its parent.
-/

namespace CborPath

/-- All links of a node. -/
def NodeData.links (data : NodeData) : List (Option NodeId) :=
  [data.parent, data.firstChild, data.lastChild, data.previousSibling, data.nextSibling]

/-- What a part of an unmixed forest holds is unmixed. -/
theorem Unmixed.parts {before after : List Outline} {part : Outline}
    (h : Unmixed (before ++ part :: after)) :
    Unmixed part.parts := by
  cases part with
  | text name value => exact .nil
  | element name parts => exact h.of_element

namespace Tree

/-- What links and kinds say in a tree of nodes that stand in document order. -/
structure WellFormed (t : Tree) : Prop where
  root_lt : 0 < t.size
  document_iff : ∀ n : Nat, n < t.size → ((t.node n).kind = .document ↔ n = 0)
  root_depth : (t.node 0).depth = 0
  root_alone : (t.node 0).parent = none ∧ (t.node 0).previousSibling = none ∧
    (t.node 0).nextSibling = none
  links_lt : ∀ n link : Nat, n < t.size → some link ∈ (t.node n).links → link < t.size
  parent : ∀ n : Nat, 0 < n → n < t.size →
    ∃ p : Nat, p < n ∧ (t.node n).parent = some p ∧ (t.node n).depth = (t.node p).depth + 1
  children : ∀ n : Nat, n < t.size →
    ∃ places : List Nat, Chain (fun i => (t.node i).nextSibling) (t.node n).firstChild places ∧
      Chain (fun i => (t.node i).previousSibling) (t.node n).lastChild places.reverse ∧
      places.Pairwise (· < ·) ∧ ∀ m : Nat, m ∈ places ↔ (t.node m).parent = some n
  run : ∀ n m : Nat, n < t.size → (t.Under m n ↔ n ≤ m ∧ m < t.stop n)
  value_iff : ∀ n : Nat, n < t.size → ((t.node n).value.isSome ↔ (t.node n).kind = .text)
  text_leaf : ∀ n : Nat, (t.node n).kind = .text →
    (t.node n).firstChild = none ∧ (t.node n).lastChild = none
  text_alone : ∀ n m : Nat, (t.node n).kind = .text →
    (t.node m).parent = (t.node n).parent → m = n

theorem bounds_of_firstPlace_eq_some {start place : Nat} {forest : List Outline}
    (h : firstPlace none start forest = some place) :
    start ≤ place ∧ place < start + forestSize forest := by
  cases forest with
  | nil => cases h
  | cons part rest =>
      cases h
      rw [forestSize_cons]
      omega

theorem bounds_of_lastPlace_eq_some {start place : Nat} {forest : List Outline}
    (h : lastPlace none start forest = some place) :
    start ≤ place ∧ place < start + forestSize forest := by
  rcases List.eq_nil_or_concat forest with rfl | ⟨before, part, rfl⟩
  · cases h
  · rw [List.concat_eq_append, lastPlace_append] at h
    cases h
    rw [List.concat_eq_append, forestSize_append, forestSize_cons]
    omega

/-- The links of a node lead to its parent, into its own run, or to its neighbours, all within the
run of the parent. -/
theorem Sited.links_lt {t : Tree} {id parent link : Nat} {before after : List Outline}
    {part : Outline} (h : t.Sited id parent before part after)
    (hLink : some link ∈ (t.node id).links) :
    link < t.size := by
  have hParent := h.parent_lt_size
  have hPlace := h.place_eq
  have hStop := h.stop_eq
  have hStopParent := h.stop_parent
  have hSize := stop_le_size hParent
  rw [Outline.size_eq] at hStop
  rw [h.node_eq] at hLink
  simp only [NodeData.links, Outline.node, List.mem_cons, List.not_mem_nil, or_false] at hLink
  rcases hLink with hUp | hFirst | hLast | hPrevious | hNext
  · cases hUp
    exact hParent
  · have := bounds_of_firstPlace_eq_some hFirst.symm
    omega
  · have := bounds_of_lastPlace_eq_some hLast.symm
    omega
  · have := bounds_of_lastPlace_eq_some hPrevious.symm
    omega
  · have := bounds_of_firstPlace_eq_some hNext.symm
    rw [Outline.size_eq] at this
    omega

section Depicts

variable {t : Tree} {all : List Outline} (h : t.Depicts all)
include h

theorem Depicts.links_root_lt {link : Nat} (hLink : some link ∈ (t.node 0).links) :
    link < t.size := by
  have hSize := h.spans.forestSize_le
  rw [h.node_root, h.spans.firstChild, h.spans.lastChild] at hLink
  simp only [NodeData.links, NodeData.document, List.mem_cons, List.not_mem_nil, or_false,
    reduceCtorEq, false_or] at hLink
  rcases hLink with hFirst | hLast
  · have := bounds_of_firstPlace_eq_some hFirst.symm
    omega
  · have := bounds_of_lastPlace_eq_some hLast.symm
    omega

theorem Depicts.links_lt {n link : Nat} (hId : n < t.size)
    (hLink : some link ∈ (t.node n).links) :
    link < t.size := by
  rcases Nat.eq_zero_or_pos n with rfl | hPos
  · exact h.links_root_lt hLink
  · obtain ⟨_, _, _, _, hSited⟩ := h.exists_sited hPos hId
    exact hSited.links_lt hLink

theorem Depicts.kind_eq_document_iff {n : Nat} (hId : n < t.size) :
    (t.node n).kind = .document ↔ n = 0 := by
  constructor
  · intro hKind
    rcases Nat.eq_zero_or_pos n with rfl | hPos
    · rfl
    · obtain ⟨_, _, part, _, hSited⟩ := h.exists_sited hPos hId
      rw [hSited.node_eq] at hKind
      cases part <;> cases hKind
  · rintro rfl
    rw [h.node_root]
    rfl

/-- A text is what its parent holds. -/
theorem Depicts.exists_sited_of_text (hUnmixed : Unmixed all) {n : Nat}
    (hKind : (t.node n).kind = .text) :
    ∃ parent name value, t.Sited n parent [] (.text name value) [] := by
  have hId : n < t.size := by
    rcases Nat.lt_or_ge n t.size with hLt | hGe
    · exact hLt
    · rw [node_of_size_le hGe] at hKind
      cases hKind
  have hPos : 0 < n := by
    rcases Nat.eq_zero_or_pos n with rfl | hPos
    · rw [h.node_root] at hKind
      cases hKind
    · exact hPos
  obtain ⟨parent, before, part, after, hSited, hWhole⟩ :=
    h.spans.exists_sited Unmixed (fun _ _ _ => Unmixed.parts) hUnmixed hPos (by rwa [h.stop_root])
  rw [hSited.node_eq] at hKind
  cases part with
  | text name value =>
      obtain ⟨rfl, rfl⟩ := hWhole.eq_nil_of_text
      exact ⟨parent, name, value, hSited⟩
  | element name parts => cases hKind

/-- A tree with unmixed content is well-formed. -/
theorem Depicts.wellFormed (hUnmixed : Unmixed all) :
    t.WellFormed := by
  refine ⟨h.lt_size, ?_, h.depth_root, ?_, ?_, ?_, ?_, ?_, ?_, ?_, ?_⟩
  · intro n hId
    exact h.kind_eq_document_iff hId
  · rw [h.node_root]
    exact ⟨rfl, rfl, rfl⟩
  · intro n link hId hLink
    exact h.links_lt hId hLink
  · intro n hPos hId
    obtain ⟨parent, _, _, _, hSited⟩ := h.exists_sited hPos hId
    exact ⟨parent, hSited.parent_lt, hSited.parent_eq, hSited.depth_eq⟩
  · intro n hId
    obtain ⟨forest, hSpans⟩ := h.exists_spans hId
    exact ⟨partPlaces (n + 1) forest, hSpans.chain_children, hSpans.chain_children_reverse,
      pairwise_partPlaces _ _, fun m => h.mem_partPlaces_iff_parent_eq hSpans⟩
  · intro n m hId
    exact h.under_iff hId
  · intro n hId
    rcases Nat.eq_zero_or_pos n with rfl | hPos
    · rw [h.node_root]
      simp [NodeData.document]
    · obtain ⟨_, _, part, _, hSited⟩ := h.exists_sited hPos hId
      rw [hSited.node_eq]
      cases part <;> simp [Outline.node, Outline.value, Outline.kind]
  · intro n hKind
    obtain ⟨_, _, _, hSited⟩ := h.exists_sited_of_text hUnmixed hKind
    rw [hSited.node_eq]
    exact ⟨rfl, rfl⟩
  · intro n m hKind hParent
    obtain ⟨parent, name, value, hSited⟩ := h.exists_sited_of_text hUnmixed hKind
    rw [hSited.parent_eq, ← h.mem_partPlaces_iff_parent_eq hSited.spans] at hParent
    have hPlace := hSited.place_eq
    simp only [List.nil_append, partPlaces, List.mem_singleton] at hParent
    rw [hParent, hPlace, forestSize_nil]

end Depicts

/-- Every tree that has been built is well-formed. -/
theorem build_wellFormed {value : Value} {t : Tree} (h : build value = .ok t) :
    t.WellFormed := by
  obtain ⟨forest, hOutline, hDepicts⟩ := exists_depicts_of_build_eq_ok h
  exact hDepicts.wellFormed (unmixed_outlineUnder "" value forest hOutline).1

theorem build_wellFormed_pair :
    build (.sequence [.scalar .null, .scalar (.boolean true)]) = .ok pair ∧ pair.WellFormed :=
  ⟨build_pair, build_wellFormed build_pair⟩

end Tree

end CborPath
