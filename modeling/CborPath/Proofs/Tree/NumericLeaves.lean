import CborPath.Proofs.Document.Leaves
import CborPath.Proofs.Number.ReadBack
import CborPath.Proofs.Tree.Text
import CborPath.Query.Answer

/-!
# Numeric leaves

A leaf with a number has this number in two ways: its content says so, and its text is read as it.  The
two agree, since the text of a scalar is read as the number that the scalar counts as.
-/

namespace CborPath

/-- Whether a scalar is an integer or a finite number. -/
def Scalar.isFiniteNumber : Scalar → Bool
  | integer _ => true
  | float x => x.isFinite
  | _ => false

namespace Scalar

/-- The text of a finite number is read as what the number counts as in comparisons. -/
theorem exists_equals_ofText_rendition {s : Scalar} (h : s.isFiniteNumber = true) :
    ∃ x, s.toAtomic? = some (.number x) ∧ (Binary64.ofText s.rendition).equals x = true := by
  cases s with
  | integer n =>
      refine ⟨_, rfl, ?_⟩
      rw [rendition, Binary64.ofText_integerText, Binary64.equals_self, Binary64.ofInt,
        Binary64.isNaN_ofFraction]
      rfl
  | float x =>
      refine ⟨x, rfl, ?_⟩
      cases x with
      | finite negative position =>
          rw [rendition, Binary64.ofText_text, Binary64.equals_self]
          rfl
      | nan => cases h
      | infinite negative => cases h
  | _ => cases h

end Scalar

namespace Tree

/-- The content of a node and its text are the same number. -/
theorem equals_ofText_stringValue {value : Value} {t : Tree} (hBuild : build value = .ok t) {n : NodeId}
    {s : Scalar} (hContent : t.content? n = some s) (h : s.isFiniteNumber = true) :
    ((Binary64.ofText (t.navigator.stringValue n)).equals (t.navigator.number n)) = true := by
  obtain ⟨forest, hOutline, hDepicts⟩ := exists_depicts_of_build_eq_ok hBuild
  have hLeaf := hDepicts.mem_forestLeaves_of_content?_eq_some hContent
  have hText : t.innerText n = s.rendition := (renders_outlineUnder "" value forest hOutline _ hLeaf).2
  obtain ⟨x, hAtomic, hEquals⟩ := s.exists_equals_ofText_rendition h
  have hTyped : t.navigator.typedValue n = some (.number x) := by
    show (t.content? n).bind Scalar.toAtomic? = _
    rw [hContent]
    exact hAtomic
  rw [Navigator.number, Navigator.atomic, hTyped]
  show (Binary64.ofText (t.innerText n)).equals x = true
  rw [hText, hEquals]

end Tree

/-- Numbers and their texts agree.  The text of an integer or a finite number in a document is read as
what it counts as in comparisons, so that in a tree that has been built a node with such a content has the
same number by its content and by its text.  In the query language, the text of a finite number is read as
an equal number, and that of any other as not-a-number. -/
theorem numbers_read_back :
    (∀ s : Scalar, s.isFiniteNumber = true →
      ∃ x, s.toAtomic? = some (.number x) ∧ (Binary64.ofText s.rendition).equals x = true) ∧
    (∀ (value : Value) (t : Tree), Tree.build value = .ok t →
      ∀ n s, t.content? n = some s → s.isFiniteNumber = true →
        (Binary64.ofText (t.navigator.stringValue n)).equals (t.navigator.number n) = true) ∧
    (∀ x : Binary64, x.isFinite = true → (Binary64.ofText x.queryText).equals x = true) ∧
    ∀ x : Binary64, x.isFinite = false → Binary64.ofText x.queryText = .nan :=
  ⟨fun _ => Scalar.exists_equals_ofText_rendition,
    fun _ _ hBuild _ _ => Tree.equals_ofText_stringValue hBuild,
    fun _ => Binary64.equals_ofText_queryText, fun _ => Binary64.ofText_queryText_eq_nan⟩

/-- The nodes of an integer by itself. -/
def Tree.minusSeven : Tree where
  nodes := #[
    { NodeData.document with firstChild := some 1, lastChild := some 1 },
    { NodeData.text (.integer (-7)) 1 with parent := some 0 }]

theorem Tree.build_minusSeven :
    build (.scalar (.integer (-7))) = .ok minusSeven := by
  simp only [build, place]
  rfl

theorem numbers_read_back_minusSeven :
    (∃ x, (Scalar.integer (-7)).toAtomic? = some (.number x) ∧
      (Binary64.ofText (Scalar.integer (-7)).rendition).equals x = true) ∧
    (Binary64.ofText (Tree.minusSeven.navigator.stringValue (1 : Nat))).equals
      (Tree.minusSeven.navigator.number (1 : Nat)) = true ∧
    (Binary64.ofText (Binary64.zero true).queryText).equals (Binary64.zero true) = true ∧
    Binary64.ofText (Binary64.infinite true).queryText = .nan := by
  obtain ⟨hScalars, hTrees, hFinite, hOthers⟩ := numbers_read_back
  exact ⟨hScalars _ rfl, hTrees _ _ Tree.build_minusSeven (1 : Nat) (.integer (-7)) rfl rfl,
    hFinite _ (by decide +kernel), hOthers _ rfl⟩

end CborPath
