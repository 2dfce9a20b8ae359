import CborPath.Proofs.Query.Paths
import CborPath.Proofs.Query.Resemblance

/-!
# Evaluation with the order found by walking

A navigator that finds the order of positions by moves alone answers every expression as one that
knows the order by places.  The evaluator compares no positions but those that moves lead to from the
context node, and on these the two orders agree.
-/

namespace CborPath

namespace Navigator

/-- The same navigation with the order found by moves. -/
def walking {P : Type} (nav : Navigator P) : Navigator P :=
  { nav with order := nav.walkOrder }

section Places

variable {P Q : Type} {nav : Navigator P} {other : Navigator Q} {f g : P → Q}
  (hLeft : nav.Places other f)
include hLeft

theorem Places.pathFromRoot_eq (p : P) :
    other.pathFromRoot (f p) = (nav.pathFromRoot p).map f := by
  rw [pathFromRoot, pathFromRoot, hLeft.ancestors_eq, ← List.map_cons, List.map_reverse]

variable (hSame : ∀ p q, other.same (f p) (g q) = nav.same p q)
include hSame

/-- Paths compare as the paths of places do.  The two sides may keep different things with their
places, as cursors of different origins do. -/
theorem Places.comparePaths_eq (ps qs : List P) :
    other.comparePaths (ps.map f) (qs.map g) = nav.comparePaths ps qs := by
  induction ps generalizing qs with
  | nil => rfl
  | cons p ps ih =>
      cases qs with
      | nil => rfl
      | cons q qs =>
          rw [List.map_cons, List.map_cons, comparePaths, comparePaths, hSame, ih,
            hLeft.followingSiblings_eq, List.any_map]
          simp only [Function.comp_def, hSame]

theorem Places.walkOrder_eq (hRight : nav.Places other g) (p q : P) :
    other.walkOrder (f p) (g q) = nav.walkOrder p q := by
  rw [walkOrder, walkOrder, hSame, hLeft.pathFromRoot_eq, hRight.pathFromRoot_eq,
    hLeft.comparePaths_eq hSame]

end Places

end Navigator

section Equal

variable {P : Type} {R : P → P → Prop} (hEq : ∀ p q, R p q → p = q)
include hEq

theorem Answer.Resembles.eq {x y : Answer P} (h : x.Resembles R y) :
    x = y := by
  cases h with
  | nodes hNodes =>
      have hSame := hNodes.imp hEq
      rw [List.forall₂_eq_eq_eq] at hSame
      rw [hSame]
  | boolean b => rfl
  | number n => rfl
  | text s => rfl

theorem Alike.eq {ε : Type} {x y : Except ε P} (h : Alike R x y) :
    x = y := by
  cases h with
  | ok hRelated => rw [hEq _ _ hRelated]
  | error e => rfl

end Equal

namespace Tree

section Evaluation

variable {t : Tree} {all : List Outline} (h : t.Depicts all) {P : Type} {other : Navigator P}
  {f : Nat → P} (hPlaces : t.navigator.Places other f)
include h hPlaces

theorem Depicts.walkOrder_eq_order {m n : Nat} (hM : m < t.size) (hN : n < t.size) :
    other.walkOrder (f m) (f n) = other.order (f m) (f n) := by
  rw [hPlaces.walkOrder_eq hPlaces.same_eq hPlaces, h.walkOrder_eq hM hN, hPlaces.order_eq]
  rfl

/-- On the positions of a tree's nodes, which no move leaves, walking changes nothing. -/
theorem Depicts.resembles_walking :
    other.walking.Resembles other (fun p q => p = q ∧ ∃ m < t.size, p = f m) true
      fun _ => true := by
  refine ⟨?_, ?_, ?_, ?_, ?_, ?_, ?_, ?_⟩
  · rintro p _ ⟨rfl, -⟩
    rfl
  · rintro p _ ⟨rfl, -⟩
    rfl
  · rintro p _ ⟨rfl, -⟩
    rfl
  · rintro p _ ⟨rfl, -⟩
    rfl
  · rintro p _ p' _ ⟨rfl, -⟩ ⟨rfl, -⟩
    rfl
  · rintro p _ p' _ ⟨rfl, m, hM, rfl⟩ ⟨rfl, n, hN, rfl⟩
    exact h.walkOrder_eq_order hPlaces hM hN
  · rintro - p _ ⟨rfl, m, hM, rfl⟩
    exact ⟨rfl, _, h.lt_size, hPlaces.root_eq m⟩
  · rintro axis - p _ ⟨rfl, m, hM, rfl⟩
    have hMoves : other.walking.axisNodes (f m) axis = other.axisNodes (f m) axis := by
      cases axis <;> rfl
    have hAxis : t.navigator.axisNodes m axis = t.axisPlaces m axis :=
      h.axisNodes_within hM (Nat.le_refl t.size) axis
    rw [hMoves, hPlaces.axisNodes_eq, hAxis, List.forall₂_same]
    intro p hMem
    obtain ⟨n, hPlace, rfl⟩ := List.mem_map.1 hMem
    exact ⟨rfl, n, h.lt_size_of_mem_axisPlaces hM hPlace, rfl⟩

/-- Evaluation does not depend on how the order is found. -/
theorem Depicts.eval_walking_eq (expr : Expr) {n : Nat} (hId : n < t.size) (position size : Nat) :
    expr.eval other.walking ⟨f n, position, size⟩ = expr.eval other ⟨f n, position, size⟩ := by
  have hAlike := expr.alike_eval (h.resembles_walking hPlaces) (Expr.all_leadsAlong _) position size
    ⟨rfl, n, hId, rfl⟩
  exact hAlike.eq fun x y hAnswer => hAnswer.eq fun p q hRelated => hRelated.1

end Evaluation

/-- The order found by walking, in a tree that has been built.  It is the order of places, for the
tree's own navigator and for cursors of one document; so it is total; and expressions evaluate to the
same with either. -/
theorem walkOrder_of_build {value : Value} {t : Tree} (hBuild : build value = .ok t) :
    (∀ a b, a < t.size → b < t.size →
      t.navigator.walkOrder a b = t.navigator.order a b ∧
      ∀ document origin origin' : Nat,
        Cursor.navigator.walkOrder ⟨document, t, a, origin⟩ ⟨document, t, b, origin'⟩ =
          Cursor.navigator.order ⟨document, t, a, origin⟩ ⟨document, t, b, origin'⟩) ∧
    (∀ a b, a < t.size → b < t.size →
      (t.navigator.walkOrder a b = .eq ↔ a = b) ∧
      t.navigator.walkOrder b a = (t.navigator.walkOrder a b).swap) ∧
    (∀ a b c, a < t.size → b < t.size → c < t.size → t.navigator.walkOrder a b ≠ .gt →
      t.navigator.walkOrder b c ≠ .gt → t.navigator.walkOrder a c ≠ .gt) ∧
    (∀ (expr : Expr) (n position size : Nat), n < t.size →
      expr.eval t.navigator.walking ⟨n, position, size⟩ =
        expr.eval t.navigator ⟨n, position, size⟩) ∧
    ∀ (expr : Expr) (c : Cursor) (position size : Nat), c.tree = t → c.current < t.size →
      expr.eval Cursor.navigator.walking ⟨c, position, size⟩ =
        expr.eval Cursor.navigator ⟨c, position, size⟩ := by
  obtain ⟨all, -, h⟩ := exists_depicts_of_build_eq_ok hBuild
  have hCursors := fun document origin => Cursor.places_navigator document t origin
  refine ⟨fun a b hA hB => ⟨h.walkOrder_eq hA hB, fun document origin origin' => ?_⟩,
    fun a b hA hB => ?_, fun a b c hA hB hC => ?_, fun expr n position size hId => ?_,
    fun expr c position size hTree hId => ?_⟩
  · have hSame : ∀ p q, Cursor.navigator.same ⟨document, t, p, origin⟩ ⟨document, t, q, origin'⟩ =
        t.navigator.same p q := (hCursors document origin).same_eq
    exact ((hCursors document origin).walkOrder_eq hSame (hCursors document origin') a b).trans
      (h.walkOrder_eq hA hB)
  · rw [h.walkOrder_eq hA hB, h.walkOrder_eq hB hA, Nat.compare_swap]
    exact ⟨Nat.compare_eq_eq, rfl⟩
  · rw [h.walkOrder_eq hA hB, h.walkOrder_eq hB hC, h.walkOrder_eq hA hC]
    simp only [ne_eq, Nat.compare_eq_gt]
    omega
  · exact h.eval_walking_eq t.navigator.places_self expr hId position size
  · obtain ⟨document, tree, current, origin⟩ := c
    cases hTree
    exact h.eval_walking_eq (hCursors document origin) expr hId position size

theorem walkOrder_of_build_pair :
    build (.sequence [.scalar .null, .scalar (.boolean true)]) = .ok pair ∧
      2 < pair.size ∧ 3 < pair.size ∧ pair.navigator.walkOrder 2 3 = pair.navigator.order 2 3 ∧
      (Expr.path false [.mk .preceding .anyNode []]).eval pair.navigator.walking ⟨4, 1, 1⟩ =
        .ok (.nodes [1, 2]) :=
  ⟨build_pair, by decide, by decide,
    ((walkOrder_of_build build_pair).1 2 3 (by decide) (by decide)).1,
    ((walkOrder_of_build build_pair).2.2.2.1 _ 4 1 1 (by decide)).trans rfl⟩

end Tree

end CborPath
