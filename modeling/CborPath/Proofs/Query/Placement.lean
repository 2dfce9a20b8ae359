import CborPath.Query.Axis
import CborPath.Tree.Cursor

/-!
# Placements

A navigator may keep more with a position than a place in a tree, as cursors do.  If each place has a
position, and what the navigator says of positions is what the tree says of their places, then all
walks give the positions of the places that the walks in the tree give.
-/

namespace CborPath

universe u v

section Traversals

variable {α : Type u} {β : Type v} {f : α → β}

theorem repeatMove_map {move : α → Option α} {other : β → Option β}
    (h : ∀ place, other (f place) = (move place).map f) (bound : Nat) (place : α) :
    repeatMove other bound (f place) = (repeatMove move bound place).map f := by
  induction bound generalizing place with
  | zero => rfl
  | succ bound ih =>
      rw [repeatMove, repeatMove, h]
      cases move place with
      | none => rfl
      | some next => exact congrArg _ (ih next)

theorem descend_map {children : α → List α} {others : β → List β}
    (h : ∀ place, others (f place) = (children place).map f) (bound : Nat) (place : α) :
    descend others bound (f place) = (descend children bound place).map f := by
  induction bound generalizing place with
  | zero => rfl
  | succ bound ih =>
      rw [descend, descend, h, List.map_flatMap, List.flatMap_map]
      simp only [ih, List.map_cons]

end Traversals

/-- The same navigation with the given bound on the number of moves. -/
def Navigator.within {P : Type} (nav : Navigator P) (bound : Nat) : Navigator P :=
  { nav with bound := fun _ => bound }

/-- Whether a navigator says of the positions of places what another says of the places. -/
structure Navigator.Places {P Q : Type} (nav : Navigator P) (other : Navigator Q) (f : P → Q) :
    Prop where
  root_eq : ∀ p, other.root (f p) = f (nav.root p)
  parent_eq : ∀ p, other.parent? (f p) = (nav.parent? p).map f
  firstChild_eq : ∀ p, other.firstChild? (f p) = (nav.firstChild? p).map f
  next_eq : ∀ p, other.next? (f p) = (nav.next? p).map f
  previous_eq : ∀ p, other.previous? (f p) = (nav.previous? p).map f
  same_eq : ∀ p q, other.same (f p) (f q) = nav.same p q
  order_eq : ∀ p q, other.order (f p) (f q) = nav.order p q
  bound_eq : ∀ p, other.bound (f p) = nav.bound p

namespace Navigator

section Places

variable {P Q : Type} {nav : Navigator P} {other : Navigator Q} {f : P → Q}
  (h : nav.Places other f)
include h

theorem Places.ancestors_eq (p : P) :
    other.ancestors (f p) = (nav.ancestors p).map f := by
  rw [ancestors, h.bound_eq]
  exact repeatMove_map h.parent_eq _ p

theorem Places.followingSiblings_eq (p : P) :
    other.followingSiblings (f p) = (nav.followingSiblings p).map f := by
  rw [followingSiblings, h.bound_eq]
  exact repeatMove_map h.next_eq _ p

theorem Places.precedingSiblings_eq (p : P) :
    other.precedingSiblings (f p) = (nav.precedingSiblings p).map f := by
  rw [precedingSiblings, h.bound_eq]
  exact repeatMove_map h.previous_eq _ p

theorem Places.children_eq (p : P) :
    other.children (f p) = (nav.children p).map f := by
  rw [children, children, h.bound_eq, h.firstChild_eq]
  cases nav.firstChild? p with
  | none => rfl
  | some child => exact congrArg _ (repeatMove_map h.next_eq _ child)

theorem Places.descendants_eq (p : P) :
    other.descendants (f p) = (nav.descendants p).map f := by
  rw [descendants, h.bound_eq]
  exact descend_map h.children_eq _ p

theorem Places.subtree_eq (p : P) :
    other.subtree (f p) = (nav.subtree p).map f := by
  rw [subtree, subtree, h.descendants_eq, List.map_cons]

theorem Places.following_eq (p : P) :
    other.following (f p) = (nav.following p).map f := by
  rw [following, following, h.ancestors_eq, ← List.map_cons, List.flatMap_map, List.map_flatMap]
  refine congrArg (fun g => List.flatMap g _) (funext fun q => ?_)
  rw [h.followingSiblings_eq, List.flatMap_map, List.map_flatMap]
  exact congrArg (fun g => List.flatMap g _) (funext h.subtree_eq)

theorem Places.preceding_eq (p : P) :
    other.preceding (f p) = (nav.preceding p).map f := by
  rw [preceding, preceding, h.ancestors_eq, ← List.map_cons, List.flatMap_map, List.map_flatMap]
  refine congrArg (fun g => List.flatMap g _) (funext fun q => ?_)
  rw [h.precedingSiblings_eq, List.flatMap_map, List.map_flatMap]
  refine congrArg (fun g => List.flatMap g _) (funext fun sibling => ?_)
  rw [h.subtree_eq, List.map_reverse]

/-- Each axis gives the positions of the places that it gives in the tree. -/
theorem Places.axisNodes_eq (p : P) (axis : Axis) :
    other.axisNodes (f p) axis = (nav.axisNodes p axis).map f := by
  cases axis with
  | child => exact h.children_eq p
  | descendant => exact h.descendants_eq p
  | descendantOrSelf => exact h.subtree_eq p
  | parent =>
      rw [axisNodes, axisNodes, h.parent_eq]
      cases nav.parent? p <;> rfl
  | ancestor => exact h.ancestors_eq p
  | ancestorOrSelf => exact congrArg _ (h.ancestors_eq p)
  | followingSibling => exact h.followingSiblings_eq p
  | precedingSibling => exact h.precedingSiblings_eq p
  | following => exact h.following_eq p
  | preceding => exact h.preceding_eq p
  | self => rfl
  | attributes => rfl

theorem Places.dropRepeats_eq (ps : List P) :
    other.dropRepeats (ps.map f) = (nav.dropRepeats ps).map f := by
  induction ps with
  | nil => rfl
  | cons p ps ih =>
      rw [List.map_cons, dropRepeats, dropRepeats, ih]
      cases nav.dropRepeats ps with
      | nil => rfl
      | cons q qs =>
          simp only [List.map_cons, h.same_eq]
          split <;> rfl

theorem Places.documentOrder_eq (ps : List P) :
    other.documentOrder (ps.map f) = (nav.documentOrder ps).map f := by
  rw [documentOrder, documentOrder, ← h.dropRepeats_eq]
  refine congrArg _ (List.map_mergeSort fun p _ q _ => ?_).symm
  rw [h.order_eq]

theorem Places.within (bound : Nat) :
    (nav.within bound).Places (other.within bound) f :=
  { h with bound_eq := fun _ => rfl }

end Places

end Navigator

/-- A tree's own navigator stands on its places. -/
theorem Navigator.places_self {P : Type} (nav : Navigator P) :
    nav.Places nav id := by
  refine ⟨fun _ => rfl, fun p => ?_, fun p => ?_, fun p => ?_, fun p => ?_, fun _ _ => rfl,
    fun _ _ => rfl, fun _ => rfl⟩ <;> exact (Option.map_id_apply).symm

/-- Cursors of one document and one origin stand on the places of its tree. -/
theorem Cursor.places_navigator (document : Nat) (tree : Tree) (origin : NodeId) :
    tree.navigator.Places Cursor.navigator fun id => ⟨document, tree, id, origin⟩ := by
  refine ⟨fun _ => rfl, fun _ => rfl, fun _ => rfl, fun _ => rfl, fun _ => rfl, fun p q => ?_,
    fun _ _ => rfl, fun _ => rfl⟩
  show (document == document && p == q) = (p == q)
  rw [beq_self_eq_true, Bool.true_and]

end CborPath
