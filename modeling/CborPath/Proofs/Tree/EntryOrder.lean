import CborPath.Engine.Session
import CborPath.Proofs.Document.Rearrangement
import CborPath.Proofs.Tree.Reading

/-!
# The order of entries in a document

A tree is fixed by the forest that it depicts, place by place.  Documents that differ only in the
order of the entries of their mappings, those of one name aside, are therefore built into the same
tree, and every request about it is answered alike.
-/

namespace CborPath

namespace Tree

/-- All that a tree keeps follows from the forest that it depicts. -/
theorem Depicts.unique {t t' : Tree} {forest : List Outline} (h : t.Depicts forest)
    (h' : t'.Depicts forest) :
    t = t' := by
  have hSize : t.size = t'.size := h.size_eq.trans h'.size_eq.symm
  have hNode : ∀ id, t.node id = t'.node id := by
    intro id
    rcases Nat.eq_zero_or_pos id with rfl | hPos
    · have hFirst : (t.node 0).firstChild = (t'.node 0).firstChild :=
        h.firstChild.trans h'.firstChild.symm
      have hLast : (t.node 0).lastChild = (t'.node 0).lastChild :=
        h.lastChild.trans h'.lastChild.symm
      rw [h.node_root, h'.node_root, hFirst, hLast]
    · rcases Nat.lt_or_ge id t.size with hLt | hGe
      · have hBelow := h.spans.below
        have hBelow' := h'.spans.below
        rw [h.depth_root] at hBelow
        rw [h'.depth_root] at hBelow'
        have hEnd : t.size = 0 + 1 + forestSize forest := h.size_eq
        exact hBelow.node_eq hBelow' hPos (by omega)
      · rw [node_of_size_le hGe, node_of_size_le (hSize ▸ hGe)]
  obtain ⟨nodes⟩ := t
  obtain ⟨nodes'⟩ := t'
  refine congrArg Tree.mk (Array.ext hSize fun id hLt hLt' => ?_)
  have hAt := hNode id
  simpa [node, hLt, hLt'] using hAt

/-- The tree of a document is the one that depicts its outline. -/
theorem build_eq_ok_iff {value : Value} {t : Tree} :
    build value = .ok t ↔ ∃ forest, value.outline = .ok forest ∧ t.Depicts forest := by
  refine ⟨exists_depicts_of_build_eq_ok, fun ⟨forest, hOutline, hDepicts⟩ => ?_⟩
  obtain ⟨t', hBuild, hDepicts'⟩ := exists_depicts_of_outline_eq_ok hOutline
  rw [hBuild, hDepicts'.unique hDepicts]

/-- Two values of the same outline, if any, are built into the same tree, if any. -/
theorem sameResult_build {value other : Value} (h : SameResult value.outline other.outline) :
    SameResult (build value) (build other) := by
  intro t
  rw [build_eq_ok_iff, build_eq_ok_iff]
  exact exists_congr fun forest => and_congr_left fun _ => h forest

/-- Putting the entries of mappings in another order, at any depth, those of one name in the same,
does not change whether a document can be built, nor any node of its tree, nor what any request about
the tree is answered. -/
theorem build_rearranged {value other : Value} (h : value.Rearranges other) :
    ((∃ t, build value = .ok t) ↔ ∃ t', build other = .ok t') ∧
    ∀ t t', build value = .ok t → build other = .ok t' →
      t'.size = t.size ∧ (∀ id, t'.node id = t.node id) ∧
        ∀ (engine : Engine) (request : Request),
          engine.serve t' request = engine.serve t request := by
  have hSame : SameResult (build value) (build other) :=
    sameResult_build (h.outlinedAlike.outline "")
  refine ⟨exists_congr hSame, fun t t' hBuild hBuild' => ?_⟩
  have hBoth := (hSame t).1 hBuild
  rw [hBuild'] at hBoth
  cases hBoth
  exact ⟨rfl, fun _ => rfl, fun _ _ => rfl⟩

/-- A mapping in which two keys give one name. -/
def colliding : Value :=
  .mapping [
    (.scalar (.integer 1), .scalar .null),
    (.scalar (.text "n1"), .scalar (.boolean true)),
    (.scalar (.text "x"), .scalar .null)]

/-- The same mapping with its last entry in front. -/
def collidingReordered : Value :=
  .mapping [
    (.scalar (.text "x"), .scalar .null),
    (.scalar (.integer 1), .scalar .null),
    (.scalar (.text "n1"), .scalar (.boolean true))]

/-- A mapping that holds the first of these. -/
def nested : Value :=
  .mapping [(.scalar (.text "a"), colliding), (.scalar (.text "b"), .sequence [])]

/-- The same mapping with its entries in the other order, and reordered within. -/
def nestedReordered : Value :=
  .mapping [(.scalar (.text "b"), .sequence []), (.scalar (.text "a"), collidingReordered)]

theorem rearranges_colliding :
    colliding.Rearranges collidingReordered := by
  have hLast : KeepsNameOrder
      [(Value.scalar (.text "n1"), Value.scalar (.boolean true)),
        (.scalar (.text "x"), .scalar .null)]
      [(.scalar (.text "x"), .scalar .null), (.scalar (.text "n1"), .scalar (.boolean true))] :=
    keepsNameOrder_swap (by decide)
  refine .mapping rfl ?_ ((hLast.cons _).trans (keepsNameOrder_swap (by decide)))
  exact .cons (.scalar _) (.cons (.scalar _) (.cons (.scalar _) .nil))

theorem rearranges_nested :
    nested.Rearranges nestedReordered := by
  have hOuter : KeepsNameOrder
      [(Value.scalar (.text "a"), collidingReordered), (.scalar (.text "b"), .sequence [])]
      [(.scalar (.text "b"), .sequence []), (.scalar (.text "a"), collidingReordered)] :=
    keepsNameOrder_swap (by decide)
  refine .mapping (by rfl) ?_ hOuter
  exact .cons rearranges_colliding (.cons (.sequence .nil) .nil)

theorem exists_build_nested :
    ∃ t, build nested = .ok t := by
  rw [(failsAtFirst_build nested).exists_eq_ok_iff]
  simp [firstUnsupported, nested, colliding, Value.keysMet, mem_entriesKeysMet_orderedEntries_iff,
    itemsKeysMet, Value.namesElement]

theorem build_rearranged_nested :
    nested.Rearranges nestedReordered ∧
      ∃ t t', build nested = .ok t ∧ build nestedReordered = .ok t' ∧
        t'.size = t.size ∧ ∀ id, t'.node id = t.node id := by
  obtain ⟨hBoth, hSame⟩ := build_rearranged rearranges_nested
  obtain ⟨t, hBuild⟩ := exists_build_nested
  obtain ⟨t', hBuild'⟩ := hBoth.1 ⟨t, hBuild⟩
  obtain ⟨hSize, hNode, -⟩ := hSame t t' hBuild hBuild'
  exact ⟨rearranges_nested, t, t', hBuild, hBuild', hSize, hNode⟩

end Tree

end CborPath
