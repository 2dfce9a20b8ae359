import CborPath.Proofs.Number.Whole
import CborPath.Proofs.Outcome
import CborPath.Proofs.Tree.Construction
import CborPath.Query.Eval

/-!
# Mirrored comparisons

Comparison treats its two sides alike: with the sides exchanged and the operator mirrored, the result is
the same, whatever the nodes are.  A node-set beside anything but a truth value compares if one of its
nodes does by itself, and so a union compares if one of its parts does.
-/

namespace CborPath

/-- The operator that says the same of two values in the other order. -/
def Comparison.mirror : Comparison → Comparison
  | equal => equal
  | notEqual => notEqual
  | less => greater
  | lessOrEqual => greaterOrEqual
  | greater => less
  | greaterOrEqual => lessOrEqual

/-- Truth values take precedence over numbers on either side, and numbers over texts. -/
theorem Atomic.equals_comm (x y : Atomic) :
    x.equals y = y.equals x := by
  cases x with
  | boolean b => cases y <;> exact Bool.beq_comm
  | number n =>
      cases y with
      | boolean c => exact Bool.beq_comm
      | number m => exact Binary64.equals_comm n m
      | text t => exact Binary64.equals_comm n _
  | text s =>
      cases y with
      | boolean c => exact Bool.beq_comm
      | number m => exact Binary64.equals_comm _ m
      | text t => exact Bool.beq_comm

theorem Comparison.holds_mirror (op : Comparison) (x y : Atomic) :
    op.mirror.holds y x = op.holds x y := by
  cases op with
  | equal => exact Atomic.equals_comm y x
  | notEqual => exact congrArg (!·) (Atomic.equals_comm y x)
  | less | lessOrEqual | greater | greaterOrEqual => rfl

/-- It does not matter which of two lists is gone through first. -/
theorem any_any_comm {α β : Type} (test : α → β → Bool) (xs : List α) (ys : List β) :
    (xs.any fun x => ys.any fun y => test x y) = ys.any fun y => xs.any fun x => test x y := by
  rw [Bool.eq_iff_iff]
  simp only [List.any_eq_true]
  constructor
  · rintro ⟨x, hx, y, hy, hTest⟩
    exact ⟨y, hy, x, hx, hTest⟩
  · rintro ⟨y, hy, x, hx, hTest⟩
    exact ⟨x, hx, y, hy, hTest⟩

section Repeats

variable {P : Type} (nav : Navigator P) {test : P → Bool}

/-- Dropping repeats loses nothing for a test that does not tell equal positions apart. -/
theorem Navigator.any_dropRepeats (hTest : ∀ p q, nav.same p q = true → test p = test q)
    (ps : List P) :
    (nav.dropRepeats ps).any test = ps.any test := by
  induction ps with
  | nil => rfl
  | cons p ps ih =>
      rw [dropRepeats, List.any_cons, ← ih]
      cases nav.dropRepeats ps with
      | nil => rfl
      | cons q qs =>
          by_cases hSame : nav.same p q = true
          · simp [hSame, hTest p q hSame]
          · simp [hSame]

theorem Navigator.any_documentOrder (hTest : ∀ p q, nav.same p q = true → test p = test q)
    (ps : List P) :
    (nav.documentOrder ps).any test = ps.any test := by
  rw [documentOrder, nav.any_dropRepeats hTest]
  exact (List.mergeSort_perm ps _).any_eq

end Repeats

namespace Answer

section Sides

variable {P : Type} (nav : Navigator P) (op : Comparison)

/-- Exchanging the sides mirrors the operator. -/
theorem compare_mirror (x y : Answer P) :
    compare nav op.mirror y x = compare nav op x y := by
  cases x with
  | nodes ps =>
      cases y with
      | nodes qs =>
          simp only [compare, op.holds_mirror]
          exact any_any_comm _ qs ps
      | boolean c =>
          cases ps with
          | nil => exact op.holds_mirror _ _
          | cons p ps => simp only [compare, toAtomic, op.holds_mirror]
      | number m => simp only [compare, toAtomic, op.holds_mirror]
      | text t => simp only [compare, toAtomic, op.holds_mirror]
  | boolean b =>
      cases y with
      | nodes qs =>
          cases qs with
          | nil => exact op.holds_mirror _ _
          | cons q qs => simp only [compare, toAtomic, op.holds_mirror]
      | boolean | number | text => exact op.holds_mirror _ _
  | number n =>
      cases y with
      | nodes qs => simp only [compare, toAtomic, op.holds_mirror]
      | boolean | number | text => exact op.holds_mirror _ _
  | text s =>
      cases y with
      | nodes qs => simp only [compare, toAtomic, op.holds_mirror]
      | boolean | number | text => exact op.holds_mirror _ _

/-- Without nodes, inequality is the absence of equality. -/
theorem compare_notEqual {x y : Answer P} (hLeft : x.type ≠ .nodeSet) (hRight : y.type ≠ .nodeSet) :
    compare nav .notEqual x y = !compare nav .equal x y := by
  cases x with
  | nodes ps => exact absurd rfl hLeft
  | boolean | number | text =>
      cases y with
      | nodes qs => exact absurd rfl hRight
      | boolean | number | text => rfl

variable {op} {y : Answer P} (hType : y.type ≠ .boolean)
include hType

/-- Beside anything but a truth value, a node-set compares if one of its nodes does by itself. -/
theorem compare_nodes_eq_any (ps : List P) :
    compare nav op (nodes ps) y = ps.any fun p => compare nav op (nodes [p]) y := by
  cases y with
  | boolean c => exact absurd rfl hType
  | nodes | number | text => simp [compare]

/-- A union compares if one of its parts does. -/
theorem compare_nodes_of_mem_iff {ps qs union : List P}
    (hUnion : ∀ p, p ∈ union ↔ p ∈ ps ∨ p ∈ qs) :
    compare nav op (nodes union) y = (compare nav op (nodes ps) y || compare nav op (nodes qs) y) := by
  rw [compare_nodes_eq_any nav hType union, compare_nodes_eq_any nav hType ps,
    compare_nodes_eq_any nav hType qs, ← List.any_append, Bool.eq_iff_iff]
  simp only [List.any_eq_true, List.mem_append, hUnion]

/-- Sorting the nodes and leaving one of each changes no comparison. -/
theorem compare_documentOrder
    (hSame : ∀ p q, nav.same p q = true → nav.atomic p = nav.atomic q) (ps : List P) :
    compare nav op (nodes (nav.documentOrder ps)) y = compare nav op (nodes ps) y := by
  rw [compare_nodes_eq_any nav hType, compare_nodes_eq_any nav hType ps]
  refine nav.any_documentOrder (fun p q h => ?_) ps
  cases y with
  | boolean c => exact absurd rfl hType
  | nodes | number | text => simp [compare, hSame p q h]

end Sides

/-- The two sides of a comparison.  Exchanging them mirrors the operator; without nodes, inequality is
the absence of equality; and beside anything but a truth value, a node-set with the nodes of two others
compares, on either side, if one of the two does.  The last holds of the union of two expressions, as far
as nodes that are the same have the same atomic value. -/
theorem compare_sides {P : Type} (nav : Navigator P) (op : Comparison) :
    (∀ x y : Answer P, compare nav op x y = compare nav op.mirror y x) ∧
    (∀ x y : Answer P, x.type ≠ .nodeSet → y.type ≠ .nodeSet →
      compare nav .notEqual x y = !compare nav .equal x y) ∧
    (∀ (ps qs union : List P) (y : Answer P), (∀ p, p ∈ union ↔ p ∈ ps ∨ p ∈ qs) →
      y.type ≠ .boolean →
      compare nav op (nodes union) y = (compare nav op (nodes ps) y || compare nav op (nodes qs) y) ∧
      compare nav op y (nodes union) = (compare nav op y (nodes ps) || compare nav op y (nodes qs))) ∧
    ((∀ p q, nav.same p q = true → nav.atomic p = nav.atomic q) →
      ∀ (left right : Expr) (context : Context P) (ps qs : List P) (y : Answer P),
        left.eval nav context = .ok (nodes ps) → right.eval nav context = .ok (nodes qs) →
        y.type ≠ .boolean →
        ∃ union, (Expr.union left right).eval nav context = .ok (nodes union) ∧
          compare nav op (nodes union) y =
            (compare nav op (nodes ps) y || compare nav op (nodes qs) y) ∧
          compare nav op y (nodes union) =
            (compare nav op y (nodes ps) || compare nav op y (nodes qs))) := by
  refine ⟨fun x y => (compare_mirror nav op x y).symm, fun x y => compare_notEqual nav, ?_, ?_⟩
  · intro ps qs union y hUnion hType
    refine ⟨compare_nodes_of_mem_iff nav hType hUnion, ?_⟩
    rw [← compare_mirror nav op y, ← compare_mirror nav op y, ← compare_mirror nav op y]
    exact compare_nodes_of_mem_iff nav hType hUnion
  · intro hSame left right context ps qs y hLeft hRight hType
    have hParts : ∀ operator : Comparison, compare nav operator (nodes (nav.documentOrder (ps ++ qs))) y =
        (compare nav operator (nodes ps) y || compare nav operator (nodes qs) y) := by
      intro operator
      rw [compare_documentOrder nav hType hSame]
      exact compare_nodes_of_mem_iff nav hType fun p => List.mem_append
    refine ⟨nav.documentOrder (ps ++ qs), ?_, hParts op, ?_⟩
    · rw [Expr.eval]
      exact bind_eq_ok hLeft (bind_eq_ok rfl (bind_eq_ok hRight (bind_eq_ok rfl rfl)))
    · rw [← compare_mirror nav op y, ← compare_mirror nav op y, ← compare_mirror nav op y]
      exact hParts op.mirror

theorem compare_sides_pair :
    compare Tree.pair.navigator .less (nodes [2, 4]) (text "2") =
      compare Tree.pair.navigator .greater (text "2") (nodes [2, 4]) ∧
    (number (Binary64.ofNat 1) : Answer NodeId).type ≠ .nodeSet ∧
    (boolean true : Answer NodeId).type ≠ .nodeSet ∧
    compare Tree.pair.navigator .notEqual (number (Binary64.ofNat 1)) (boolean true) =
      !compare Tree.pair.navigator .equal (number (Binary64.ofNat 1)) (boolean true) ∧
    (text "true" : Answer NodeId).type ≠ .boolean ∧
    (∀ p : NodeId, p ∈ [1, 3] ↔ p ∈ [1] ∨ p ∈ [3]) ∧
    compare Tree.pair.navigator .equal (text "true") (nodes [1, 3]) =
      (compare Tree.pair.navigator .equal (text "true") (nodes [1]) ||
        compare Tree.pair.navigator .equal (text "true") (nodes [3])) ∧
    (∀ p q, Tree.pair.navigator.same p q = true →
      Tree.pair.navigator.atomic p = Tree.pair.navigator.atomic q) ∧
    (Expr.path false [.mk .descendant .anyText []]).eval Tree.pair.navigator ⟨0, 1, 1⟩ =
      .ok (nodes [2, 4]) ∧
    (Expr.path false [.mk .child .anyElement []]).eval Tree.pair.navigator ⟨0, 1, 1⟩ =
      .ok (nodes [1, 3]) ∧
    ∃ union, (Expr.union (.path false [.mk .descendant .anyText []])
        (.path false [.mk .child .anyElement []])).eval Tree.pair.navigator ⟨0, 1, 1⟩ =
          .ok (nodes union) ∧
      compare Tree.pair.navigator .equal (nodes union) (text "true") =
        (compare Tree.pair.navigator .equal (nodes [2, 4]) (text "true") ||
          compare Tree.pair.navigator .equal (nodes [1, 3]) (text "true")) ∧
      compare Tree.pair.navigator .equal (text "true") (nodes union) =
        (compare Tree.pair.navigator .equal (text "true") (nodes [2, 4]) ||
          compare Tree.pair.navigator .equal (text "true") (nodes [1, 3])) := by
  have hNumber : (number (Binary64.ofNat 1) : Answer NodeId).type ≠ .nodeSet := by rintro ⟨⟩
  have hBoolean : (boolean true : Answer NodeId).type ≠ .nodeSet := by rintro ⟨⟩
  have hText : (text "true" : Answer NodeId).type ≠ .boolean := by rintro ⟨⟩
  have hParts : ∀ p : NodeId, p ∈ [1, 3] ↔ p ∈ [1] ∨ p ∈ [3] := by simp
  have hSame : ∀ p q, Tree.pair.navigator.same p q = true →
      Tree.pair.navigator.atomic p = Tree.pair.navigator.atomic q :=
    fun p q h => congrArg _ (eq_of_beq h)
  have hTexts : (Expr.path false [.mk .descendant .anyText []]).eval Tree.pair.navigator ⟨0, 1, 1⟩ =
      .ok (nodes [2, 4]) := by
    rfl
  have hElements : (Expr.path false [.mk .child .anyElement []]).eval Tree.pair.navigator ⟨0, 1, 1⟩ =
      .ok (nodes [1, 3]) := by
    rfl
  obtain ⟨-, hNegation, hUnion, hExpr⟩ := compare_sides Tree.pair.navigator .equal
  exact ⟨(compare_sides Tree.pair.navigator .less).1 _ _, hNumber, hBoolean,
    hNegation _ _ hNumber hBoolean, hText, hParts, (hUnion [1] [3] _ _ hParts hText).2, hSame, hTexts,
    hElements, hExpr hSame _ _ _ _ _ _ hTexts hElements hText⟩

end Answer

end CborPath
