import CborPath.Proofs.Tree.Construction
import CborPath.Query.Compare

/-!
# The standard comparison

The comparison of XPath 1.0, section 3.4, written out by the types of the two answers.  Where no node
has an atomic value of its own, answers compare as it says, but for one pair of types: nodes beside a
truth value are still compared one by one, each by its text, and only the empty node-set is compared
as a whole.
-/

namespace CborPath

namespace Comparison

/-- Whether this asks for equality or for its absence, and not for an order. -/
def isEquality : Comparison → Bool
  | equal | notEqual => true
  | _ => false

/-- Whether a comparison holds between two numbers. -/
def ofNumbers (op : Comparison) (x y : Binary64) : Bool :=
  match op with
  | equal => x.equals y
  | notEqual => !x.equals y
  | less => x.less y
  | lessOrEqual => x.atMost y
  | greater => y.less x
  | greaterOrEqual => y.atMost x

/-- Whether a comparison holds between two texts, whose order is that of their numbers. -/
def ofTexts (op : Comparison) (s t : String) : Bool :=
  match op with
  | equal => s == t
  | notEqual => s != t
  | _ => op.ofNumbers (Binary64.ofText s) (Binary64.ofText t)

/-- Whether a comparison holds between two truth values, whose order is that of their numbers. -/
def ofBooleans (op : Comparison) (b c : Bool) : Bool :=
  match op with
  | equal => b == c
  | notEqual => b != c
  | _ => op.ofNumbers (booleanNumber b) (booleanNumber c)

end Comparison

namespace Answer

variable {P : Type}

/-- The comparison of XPath 1.0, section 3.4.  A node-set compares with another one, with a number or
with a text if any of its nodes does, by its text; beside a truth value it counts as one itself.  Other
values are equal as truth values if either is one, else as numbers if either is one, else as texts, and
are ordered as numbers. -/
def standardCompare (nav : Navigator P) (op : Comparison) : Answer P → Answer P → Bool
  | nodes ps, nodes qs =>
      ps.any fun p => qs.any fun q => op.ofTexts (nav.stringValue p) (nav.stringValue q)
  | nodes ps, number m => ps.any fun p => op.ofNumbers (Binary64.ofText (nav.stringValue p)) m
  | number n, nodes qs => qs.any fun q => op.ofNumbers n (Binary64.ofText (nav.stringValue q))
  | nodes ps, text t => ps.any fun p => op.ofTexts (nav.stringValue p) t
  | text s, nodes qs => qs.any fun q => op.ofTexts s (nav.stringValue q)
  | nodes ps, boolean c => op.ofBooleans (nodes ps).toBoolean c
  | boolean b, nodes qs => op.ofBooleans b (nodes qs).toBoolean
  | x, y =>
      if op.isEquality then
        if x.type = .boolean ∨ y.type = .boolean then op.ofBooleans x.toBoolean y.toBoolean
        else if x.type = .number ∨ y.type = .number then
          op.ofNumbers (x.toNumber nav) (y.toNumber nav)
        else op.ofTexts (x.toText nav) (y.toText nav)
      else op.ofNumbers (x.toNumber nav) (y.toNumber nav)

/-- Whether one of two answers is a truth value and the other a node-set that is not empty. -/
def nodesBesideBoolean : Answer P → Answer P → Bool
  | nodes (_ :: _), boolean _ => true
  | boolean _, nodes (_ :: _) => true
  | _, _ => false

end Answer

section Holds

variable (op : Comparison)

theorem Comparison.holds_texts (s t : String) :
    op.holds (.text s) (.text t) = op.ofTexts s t := by
  cases op <;> rfl

theorem Comparison.holds_text_number (s : String) (m : Binary64) :
    op.holds (.text s) (.number m) = op.ofNumbers (Binary64.ofText s) m := by
  cases op <;> rfl

theorem Comparison.holds_number_text (n : Binary64) (t : String) :
    op.holds (.number n) (.text t) = op.ofNumbers n (Binary64.ofText t) := by
  cases op <;> rfl

theorem Comparison.holds_booleans (b c : Bool) :
    op.holds (.boolean b) (.boolean c) = op.ofBooleans b c := by
  cases op <;> rfl

end Holds

namespace Answer

section Plain

variable {P : Type} (nav : Navigator P) (op : Comparison)

/-- Values that are not node-sets compare by the standard, whatever the nodes are. -/
theorem holds_toAtomic {x y : Answer P} (hLeft : x.type ≠ .nodeSet) (hRight : y.type ≠ .nodeSet) :
    op.holds (x.toAtomic nav) (y.toAtomic nav) = standardCompare nav op x y := by
  cases x with
  | nodes ps => exact absurd rfl hLeft
  | _ =>
      cases y with
      | nodes qs => exact absurd rfl hRight
      | _ => cases op <;> rfl

variable (hPlain : ∀ p, nav.typedValue p = none)
include hPlain

theorem atomic_of_plain (p : P) : nav.atomic p = .text (nav.stringValue p) := by
  rw [Navigator.atomic, hPlain]
  rfl

/-- Answers compare by the standard, unless nodes meet a truth value. -/
theorem compare_eq_standardCompare {x y : Answer P} (h : nodesBesideBoolean x y = false) :
    compare nav op x y = standardCompare nav op x y := by
  have hAtomic := atomic_of_plain nav hPlain
  cases x with
  | nodes ps =>
      cases y with
      | nodes qs => simp only [compare, standardCompare, hAtomic, op.holds_texts]
      | boolean c =>
          cases ps with
          | nil => exact op.holds_booleans false c
          | cons p ps => cases h
      | number m =>
          simp only [compare, standardCompare, toAtomic, hAtomic, op.holds_text_number]
      | text t => simp only [compare, standardCompare, toAtomic, hAtomic, op.holds_texts]
  | boolean b =>
      cases y with
      | nodes qs =>
          cases qs with
          | nil => exact op.holds_booleans b false
          | cons q qs => cases h
      | _ => exact holds_toAtomic nav op (by rintro ⟨⟩) (by rintro ⟨⟩)
  | number n =>
      cases y with
      | nodes qs =>
          simp only [compare, standardCompare, toAtomic, hAtomic, op.holds_number_text]
      | _ => exact holds_toAtomic nav op (by rintro ⟨⟩) (by rintro ⟨⟩)
  | text s =>
      cases y with
      | nodes qs => simp only [compare, standardCompare, toAtomic, hAtomic, op.holds_texts]
      | _ => exact holds_toAtomic nav op (by rintro ⟨⟩) (by rintro ⟨⟩)

/-- Nodes beside a truth value compare one by one, each as its text does. -/
theorem compare_of_nodesBesideBoolean (p : P) (ps : List P) (b : Bool) :
    compare nav op (nodes (p :: ps)) (boolean b) =
        (p :: ps).any (fun q => standardCompare nav op (text (nav.stringValue q)) (boolean b)) ∧
      compare nav op (boolean b) (nodes (p :: ps)) =
        (p :: ps).any fun q => standardCompare nav op (boolean b) (text (nav.stringValue q)) := by
  have hLeft : ∀ q, op.holds (nav.atomic q) (.boolean b) =
      standardCompare nav op (text (nav.stringValue q)) (boolean b) := by
    intro q
    rw [atomic_of_plain nav hPlain]
    exact holds_toAtomic nav op (x := text _) (y := boolean b) (by rintro ⟨⟩) (by rintro ⟨⟩)
  have hRight : ∀ q, op.holds (.boolean b) (nav.atomic q) =
      standardCompare nav op (boolean b) (text (nav.stringValue q)) := by
    intro q
    rw [atomic_of_plain nav hPlain]
    exact holds_toAtomic nav op (x := boolean b) (y := text _) (by rintro ⟨⟩) (by rintro ⟨⟩)
  simp only [← hLeft, ← hRight]
  exact ⟨rfl, rfl⟩

end Plain

/-- Comparisons where no node has an atomic value of its own.  They are those of the standard, but for
a truth value beside nodes: then each node counts as its text does, and the node-set is true or false
as a whole only if it is empty. -/
theorem compare_of_plain {P : Type} (nav : Navigator P) (hPlain : ∀ p, nav.typedValue p = none)
    (op : Comparison) :
    (∀ x y : Answer P, nodesBesideBoolean x y = false →
      compare nav op x y = standardCompare nav op x y) ∧
    ∀ (p : P) (ps : List P) (b : Bool),
      compare nav op (nodes (p :: ps)) (boolean b) =
        (p :: ps).any (fun q => standardCompare nav op (text (nav.stringValue q)) (boolean b)) ∧
      compare nav op (boolean b) (nodes (p :: ps)) =
        (p :: ps).any fun q => standardCompare nav op (boolean b) (text (nav.stringValue q)) :=
  ⟨fun _ _ h => compare_eq_standardCompare nav op hPlain h,
    compare_of_nodesBesideBoolean nav op hPlain⟩

theorem compare_of_plain_pair :
    (∀ p, Tree.pair.plainNavigator.typedValue p = none) ∧
    nodesBesideBoolean (nodes [2, 4]) (text "true" : Answer NodeId) = false ∧
    compare Tree.pair.plainNavigator .equal (nodes [2, 4]) (text "true") =
      standardCompare Tree.pair.plainNavigator .equal (nodes [2, 4]) (text "true") ∧
    standardCompare Tree.pair.plainNavigator .equal (nodes [2, 4]) (text "true") = true ∧
    compare Tree.pair.plainNavigator .notEqual (boolean false) (nodes [2, 4]) =
      [2, 4].any fun q => standardCompare Tree.pair.plainNavigator .notEqual (boolean false)
        (text (Tree.pair.plainNavigator.stringValue q)) := by
  have hPlain : ∀ p, Tree.pair.plainNavigator.typedValue p = none := fun _ => rfl
  exact ⟨hPlain, rfl, (compare_of_plain _ hPlain .equal).1 _ _ rfl, rfl,
    ((compare_of_plain _ hPlain .notEqual).2 2 [4] false).2⟩

/-- The standard fails where a node meets a truth value: the node-set of one node that says `true` is
true as a whole, but the number of its text is not at least one. -/
theorem not_compare_eq_standard :
    ¬∀ nav : Navigator NodeId, (∀ p, nav.typedValue p = none) → ∀ (op : Comparison)
      (x y : Answer NodeId), compare nav op x y = standardCompare nav op x y := by
  intro h
  have hEq := h Tree.pair.plainNavigator (fun _ => rfl) .greaterOrEqual (nodes [3]) (boolean true)
  have hFound :
      compare Tree.pair.plainNavigator .greaterOrEqual (nodes [3]) (boolean true) = false := by
    decide +kernel
  have hStandard :
      standardCompare Tree.pair.plainNavigator .greaterOrEqual (nodes [3]) (boolean true) = true := by
    decide +kernel
  rw [hFound, hStandard] at hEq
  cases hEq

end Answer

end CborPath
