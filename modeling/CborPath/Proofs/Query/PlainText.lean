import CborPath.Proofs.Query.WalkOrder
import CborPath.Proofs.Tree.Text

/-!
# Documents of texts

Nodes count by the scalars they hold, and otherwise by their text.  In a document whose scalars are
null, texts and bytes the scalar never says more than the text: null counts as nothing, and a text or
bytes count as the text that they are written as.  A navigator that knows no scalars, and that finds
the order of positions by moves alone, therefore answers every expression alike.
-/

namespace CborPath

namespace Scalar

/-- Whether a scalar counts as nothing but its text. -/
def isTextual : Scalar → Bool
  | null | text _ | bytes _ => true
  | boolean _ | integer _ | float _ => false

theorem getD_toAtomic?_of_isTextual {s : Scalar} (h : s.isTextual = true) :
    s.toAtomic?.getD (.text s.rendition) = .text s.rendition := by
  cases s with
  | null => rfl
  | text content => rfl
  | bytes content => rfl
  | boolean b => cases h
  | integer n => cases h
  | float x => cases h

end Scalar

/-- The same navigation with positions that count by their text alone, in the order found by
moves. -/
def Navigator.plain {P : Type} (nav : Navigator P) : Navigator P :=
  { nav.walking with typedValue := fun _ => none }

/-- Whether the positions of a tree's nodes count by their text. -/
def Navigator.CountsByText {P : Type} (nav : Navigator P) (size : Nat) (f : Nat → P) : Prop :=
  ∀ n < size, nav.atomic (f n) = .text (nav.stringValue (f n))

namespace Tree

/-- In a tree whose leaves are textual all nodes count by their text. -/
theorem Depicts.countsByText {t : Tree} {all : List Outline} (h : t.Depicts all)
    (hLeaves : ∀ leaf ∈ forestLeaves all,
      leaf.1 = leaf.2.rendition ∧ leaf.2.isTextual = true) :
    t.navigator.CountsByText t.size id := by
  intro n _
  show ((t.content? n).bind Scalar.toAtomic?).getD (.text (t.innerText n)) = .text (t.innerText n)
  cases hContent : t.content? n with
  | none => rfl
  | some s =>
      obtain ⟨hText, hTextual⟩ := hLeaves _ (h.mem_forestLeaves_of_content?_eq_some hContent)
      rw [show t.innerText n = s.rendition from hText]
      exact Scalar.getD_toAtomic?_of_isTextual hTextual

section Evaluation

variable {t : Tree} {all : List Outline} (h : t.Depicts all) {P : Type} {other : Navigator P}
  {f : Nat → P} (hPlaces : t.navigator.Places other f) (hText : other.CountsByText t.size f)
include h hPlaces hText

/-- Where all nodes count by their text, a plain navigator sees what the navigator sees. -/
theorem Depicts.resembles_plain :
    other.plain.Resembles other (fun p q => p = q ∧ ∃ m < t.size, p = f m) true fun _ => true := by
  have hWalking := h.resembles_walking hPlaces
  refine { hWalking with atomic_eq := ?_, axisNodes := fun axis => ?_ }
  · rintro p _ ⟨rfl, m, hId, rfl⟩
    exact (hText m hId).symm
  · have hAxis := hWalking.axisNodes axis
    cases axis <;> exact hAxis

/-- Evaluation with a plain navigator gives the same answer, which converts to the same number and the
same text, or the same failure. -/
theorem Depicts.eval_plain_eq (expr : Expr) {n : Nat} (hId : n < t.size) (position size : Nat) :
    expr.eval other.plain ⟨f n, position, size⟩ = expr.eval other ⟨f n, position, size⟩ ∧
      ∀ answer, expr.eval other ⟨f n, position, size⟩ = .ok answer →
        answer.toNumber other.plain = answer.toNumber other ∧
          answer.toText other.plain = answer.toText other := by
  have hPlain := h.resembles_plain hPlaces hText
  have hAlike := expr.alike_eval hPlain (Expr.all_leadsAlong _) position size ⟨rfl, n, hId, rfl⟩
  have hEval := hAlike.eq fun x y hAnswer => hAnswer.eq fun p q hRelated => hRelated.1
  refine ⟨hEval, fun answer hAnswer => ?_⟩
  rw [hEval, hAnswer] at hAlike
  obtain ⟨hAnswer⟩ := hAlike
  exact ⟨hAnswer.toNumber_eq hPlain, hAnswer.toText_eq hPlain⟩

end Evaluation

/-- In a document whose scalars outside of mapping keys are null, texts and bytes, every expression
evaluates at every node to the same answer or failure with a navigator that knows no scalars and finds
the order by moves, for the tree's own navigator and for cursors; and the answer converts to the same
number and text. -/
theorem eval_plain_of_build {value : Value} {t : Tree} (hBuild : build value = .ok t)
    (hTextual : ∀ s, value.Reaches (.scalar s) → s.isTextual = true) (expr : Expr)
    (position size : Nat) :
    (∀ n < t.size,
      expr.eval t.plainNavigator ⟨n, position, size⟩ =
          expr.eval t.navigator ⟨n, position, size⟩ ∧
        ∀ answer, expr.eval t.navigator ⟨n, position, size⟩ = .ok answer →
          answer.toNumber t.plainNavigator = answer.toNumber t.navigator ∧
            answer.toText t.plainNavigator = answer.toText t.navigator) ∧
    ∀ c : Cursor, c.tree = t → c.current < t.size →
      expr.eval Cursor.navigator.plain ⟨c, position, size⟩ =
          expr.eval Cursor.navigator ⟨c, position, size⟩ ∧
        ∀ answer, expr.eval Cursor.navigator ⟨c, position, size⟩ = .ok answer →
          answer.toNumber Cursor.navigator.plain = answer.toNumber Cursor.navigator ∧
            answer.toText Cursor.navigator.plain = answer.toText Cursor.navigator := by
  obtain ⟨all, hOutline, h⟩ := exists_depicts_of_build_eq_ok hBuild
  have hText : t.navigator.CountsByText t.size id := by
    refine h.countsByText fun leaf hLeaf => ?_
    obtain ⟨hReaches, hRendition⟩ := renders_outlineUnder "" value all hOutline leaf hLeaf
    exact ⟨hRendition, hTextual leaf.2 hReaches⟩
  refine ⟨fun n hId => h.eval_plain_eq t.navigator.places_self hText expr hId position size,
    fun c hTree hId => ?_⟩
  obtain ⟨document, tree, current, origin⟩ := c
  cases hTree
  exact h.eval_plain_eq (Cursor.places_navigator document tree origin) hText expr hId position size

/-- The nodes of a sequence of null, a text and bytes. -/
def texts : Tree where
  nodes := #[
    { NodeData.document with firstChild := some 1, lastChild := some 5 },
    { NodeData.element "element" 1 with
      parent := some 0, firstChild := some 2, lastChild := some 2, nextSibling := some 3 },
    { NodeData.text .null 2 with parent := some 1 },
    { NodeData.element "element" 1 with
      parent := some 0, firstChild := some 4, lastChild := some 4, previousSibling := some 1,
      nextSibling := some 5 },
    { NodeData.text (.text "7") 2 with parent := some 3 },
    { NodeData.element "element" 1 with
      parent := some 0, firstChild := some 6, lastChild := some 6, previousSibling := some 3 },
    { NodeData.text (.bytes [0x37]) 2 with parent := some 5 }]

theorem build_texts :
    build (.sequence [.scalar .null, .scalar (.text "7"), .scalar (.bytes [0x37])]) =
      .ok texts := by
  simp only [build, place, placeItems]
  rfl

theorem isTextual_texts (s : Scalar)
    (h : Value.Reaches (.sequence [.scalar .null, .scalar (.text "7"), .scalar (.bytes [0x37])])
      (.scalar s)) :
    s.isTextual = true := by
  obtain _ | ⟨hItem, hScalar⟩ := h
  simp only [List.mem_cons, List.not_mem_nil, or_false] at hItem
  rcases hItem with rfl | rfl | rfl <;> cases hScalar <;> rfl

theorem eval_plain_of_build_texts :
    build (.sequence [.scalar .null, .scalar (.text "7"), .scalar (.bytes [0x37])]) = .ok texts ∧
      (∀ s, Value.Reaches
        (.sequence [.scalar .null, .scalar (.text "7"), .scalar (.bytes [0x37])]) (.scalar s) →
          s.isTextual = true) ∧
      (Expr.path false [.mk .child .anyElement
          [.compare .equal (.path false [.mk .self .anyNode []]) (.literal "7")]]).eval
        texts.plainNavigator ⟨0, 1, 1⟩ = .ok (.nodes [3, 5]) :=
  ⟨build_texts, isTextual_texts,
    ((eval_plain_of_build build_texts isTextual_texts _ 1 1).1 0 (by decide)).1.trans rfl⟩

end Tree

end CborPath
