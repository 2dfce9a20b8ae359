import CborPath.Proofs.Query.Placement
import CborPath.Proofs.Query.Resemblance
import CborPath.Proofs.Tree.Subtrees
import CborPath.Proofs.Tree.Walks
import CborPath.Query.Scope

/-!
# Locality

An expression that only leads down sees nothing but the subtree of its context node.  At two nodes
with the same subtree, of one tree or of two, it evaluates to the same atomic value, to the same
failure, or to nodes at the same places counted from the two nodes.
-/

namespace CborPath

/-- An answer with its positions put differently. -/
def Answer.map {P Q : Type} (f : P → Q) : Answer P → Answer Q
  | nodes positions => .nodes (positions.map f)
  | boolean b => .boolean b
  | number n => .number n
  | text s => .text s

theorem Answer.map_map {P Q S : Type} (f : P → Q) (g : Q → S) (x : Answer P) :
    (x.map f).map g = x.map (g ∘ f) := by
  cases x with
  | nodes positions => rw [map, map, map, List.map_map]
  | boolean b => rfl
  | number n => rfl
  | text s => rfl

/-- The nodes of an answer are related to those of an answer that it resembles. -/
theorem Alike.exists_related {ε P Q : Type} {R : P → Q → Prop} {outcome : Except ε (Answer P)}
    {other : Except ε (Answer Q)} {found : List P} (h : Alike (Answer.Resembles R) outcome other)
    (hFound : outcome = .ok (.nodes found)) :
    ∀ p ∈ found, ∃ q, R p q := by
  subst hFound
  obtain ⟨⟨hNodes⟩⟩ := h
  have hBoth := hNodes.imp fun p q hRelated => And.intro (Exists.intro q hRelated) hRelated
  exact ((List.forall₂_and_left _ _).1 hBoth).1

section Functional

variable {ε P Q : Type} {R : P → Q → Prop} {f : P → Q} (hFunction : ∀ p q, R p q → q = f p)
include hFunction

theorem eq_map_of_forall₂ {ps : List P} {qs : List Q} (h : List.Forall₂ R ps qs) :
    qs = ps.map f := by
  induction h with
  | nil => rfl
  | cons hRelated _ ih => rw [List.map_cons, ← ih, hFunction _ _ hRelated]

theorem Answer.Resembles.eq_map {x : Answer P} {y : Answer Q} (h : x.Resembles R y) :
    y = x.map f := by
  cases h with
  | nodes hNodes => rw [eq_map_of_forall₂ hFunction hNodes, Answer.map]
  | boolean b => rfl
  | number n => rfl
  | text s => rfl

theorem Alike.eq_map {outcome : Except ε P} {other : Except ε Q} (h : Alike R outcome other) :
    other = outcome.map f := by
  cases h with
  | ok hRelated =>
      rw [hFunction _ _ hRelated]
      rfl
  | error e => rfl

end Functional

/-- Cursors of one document and one origin see what the places of their nodes see. -/
theorem Cursor.resembles_navigator (document : Nat) (tree : Tree) (origin : NodeId) :
    tree.navigator.Resembles Cursor.navigator (fun n c => c = ⟨document, tree, n, origin⟩) true
      fun _ => true := by
  have hPlaces := Cursor.places_navigator document tree origin
  refine ⟨?_, ?_, ?_, ?_, ?_, ?_, ?_, ?_⟩
  · rintro n _ rfl
    rfl
  · rintro n _ rfl
    rfl
  · rintro n _ rfl
    rfl
  · rintro n _ rfl
    rfl
  · rintro n _ m _ rfl rfl
    exact (hPlaces.same_eq n m).symm
  · rintro n _ m _ rfl rfl
    exact (hPlaces.order_eq n m).symm
  · rintro - n _ rfl
    exact hPlaces.root_eq n
  · rintro axis - n _ rfl
    rw [hPlaces.axisNodes_eq, List.forall₂_map_right_iff, List.forall₂_same]
    exact fun _ _ => rfl

theorem Cursor.eval_eq (document : Nat) (tree : Tree) (origin : NodeId) (expr : Expr)
    (n position size : Nat) :
    expr.eval Cursor.navigator ⟨⟨document, tree, n, origin⟩, position, size⟩ =
      (expr.eval tree.navigator ⟨n, position, size⟩).map
        (Answer.map fun m => ⟨document, tree, m, origin⟩) :=
  (expr.alike_eval (Cursor.resembles_navigator document tree origin) (Expr.all_leadsAlong _)
    position size rfl).eq_map fun _ _ hAnswer => hAnswer.eq_map fun _ _ hCursor => hCursor

/-- Leading down is following the downward axes, from the context node. -/
theorem Expr.leadsDown_eq :
    Expr.leadsDown = Expr.leadsAlong false Axis.isDownward := by
  funext expr
  cases expr <;> simp [Expr.leadsDown, Expr.leadsAlong]

/-- Where a downward axis leads from a node that holds a forest, counted from the node. -/
def Axis.offsets (forest : List Outline) : Axis → List Nat
  | child => partPlaces 1 forest
  | descendant => List.range' 1 (forestSize forest)
  | descendantOrSelf => List.range' 0 (forestSize forest + 1)
  | self => [0]
  | _ => []

theorem le_forestSize_of_mem_offsets {forest : List Outline} {axis : Axis} {offset : Nat}
    (h : offset ∈ axis.offsets forest) :
    offset ≤ forestSize forest := by
  cases axis with
  | child =>
      have := bounds_of_mem_partPlaces h
      omega
  | descendant =>
      have := List.mem_range'_1.1 h
      omega
  | descendantOrSelf =>
      have := List.mem_range'_1.1 h
      omega
  | self =>
      rw [List.mem_singleton.1 h]
      exact Nat.zero_le _
  | _ => cases h

namespace Tree

theorem Spans.axisNodes_eq {t : Tree} {n : Nat} {forest : List Outline} (h : t.Spans n forest)
    {axis : Axis} (hAxis : axis.isDownward = true) :
    t.navigator.axisNodes n axis = (axis.offsets forest).map (n + ·) := by
  cases axis with
  | child => exact (h.children_within (Nat.le_refl t.size)).trans (partPlaces_add n 1 forest)
  | descendant =>
      refine (h.descendants_within (Nat.le_refl t.size)).trans ?_
      rw [Axis.offsets, List.map_add_range']
  | descendantOrSelf =>
      refine (h.subtree_within (Nat.le_refl t.size)).trans ?_
      rw [Axis.offsets, List.map_add_range']
      rfl
  | self => rfl
  | attributes => rfl
  | _ => cases hAxis

/-- Whether two places are equally far from two nodes, and not farther than a given distance. -/
def Abreast (n n' extent m m' : Nat) : Prop :=
  ∃ offset ≤ extent, m = n + offset ∧ m' = n' + offset

section Twins

variable {t t' : Tree} {n n' m m' : Nat} {forest : List Outline}

theorem Twins.exists_of_abreast (h : t.Twins n t' n' forest)
    (hAbreast : Abreast n n' (forestSize forest) m m') :
    ∃ parts, t.Twins m t' m' parts ∧
      ∀ l l', Abreast m m' (forestSize parts) l l' → Abreast n n' (forestSize forest) l l' := by
  obtain ⟨offset, hOffset, rfl, rfl⟩ := hAbreast
  obtain ⟨parts, hTwins, hEnd⟩ := h.exists_within hOffset
  refine ⟨parts, hTwins, ?_⟩
  rintro _ _ ⟨inner, hInner, rfl, rfl⟩
  exact ⟨offset + inner, by omega, by omega, by omega⟩

/-- Within the subtrees of twins, positions equally far from them look alike, compare alike, and lead
down to such positions. -/
theorem Twins.resembles (h : t.Twins n t' n' forest) :
    t.navigator.Resembles t'.navigator (Abreast n n' (forestSize forest)) false Axis.isDownward := by
  refine ⟨?_, ?_, ?_, ?_, ?_, ?_, nofun, ?_⟩
  · intro m m' hAbreast
    obtain ⟨parts, hTwins, -⟩ := h.exists_of_abreast hAbreast
    exact congrArg NodeKind.nodeType hTwins.kind_eq
  · intro m m' hAbreast
    obtain ⟨parts, hTwins, -⟩ := h.exists_of_abreast hAbreast
    exact hTwins.name_eq
  · intro m m' hAbreast
    obtain ⟨parts, hTwins, -⟩ := h.exists_of_abreast hAbreast
    exact hTwins.innerText_eq
  · intro m m' hAbreast
    obtain ⟨parts, hTwins, -⟩ := h.exists_of_abreast hAbreast
    show ((t.content? m).bind Scalar.toAtomic?).getD (.text (t.innerText m)) =
      ((t'.content? m').bind Scalar.toAtomic?).getD (.text (t'.innerText m'))
    rw [hTwins.content?_eq, hTwins.innerText_eq]
  · rintro _ _ _ _ ⟨offset, -, rfl, rfl⟩ ⟨other, -, rfl, rfl⟩
    show (n + offset == n + other) = (n' + offset == n' + other)
    rw [Bool.eq_iff_iff, beq_iff_eq, beq_iff_eq, Nat.add_left_cancel_iff, Nat.add_left_cancel_iff]
  · rintro _ _ _ _ ⟨offset, -, rfl, rfl⟩ ⟨other, -, rfl, rfl⟩
    show compare (n + offset) (n + other) = compare (n' + offset) (n' + other)
    simp only [Nat.compare_eq_ite_lt, Nat.add_lt_add_iff_left]
  · intro axis hAxis m m' hAbreast
    obtain ⟨parts, hTwins, hInner⟩ := h.exists_of_abreast hAbreast
    rw [hTwins.left.axisNodes_eq hAxis, hTwins.right.axisNodes_eq hAxis,
      List.forall₂_map_left_iff, List.forall₂_map_right_iff, List.forall₂_same]
    intro offset hMem
    exact hInner _ _ ⟨offset, le_forestSize_of_mem_offsets hMem, rfl, rfl⟩

/-- A downward expression evaluates alike at twins. -/
theorem Twins.alike_eval (h : t.Twins n t' n' forest) {expr : Expr}
    (hDown : expr.isDownward = true) (position size : Nat) :
    Alike (Answer.Resembles (Abreast n n' (forestSize forest)))
      (expr.eval t.navigator ⟨n, position, size⟩) (expr.eval t'.navigator ⟨n', position, size⟩) := by
  rw [Expr.isDownward, Expr.leadsDown_eq] at hDown
  exact expr.alike_eval h.resembles hDown position size ⟨0, Nat.zero_le _, rfl, rfl⟩

end Twins

/-- A downward expression evaluates at two nodes with the same subtree, of trees that have been built,
to the same atomic value, to the same failure, or to nodes within the subtrees that are equally far
from the two nodes.  This holds for the trees' own navigators and for cursors. -/
theorem eval_downward_of_build {value value' : Value} {t t' : Tree} (hBuild : build value = .ok t)
    (hBuild' : build value' = .ok t') {n n' : Nat} (hId : n < t.size) (hId' : n' < t'.size)
    (hSame : t.SameSubtree n t' n') {expr : Expr} (hDown : expr.isDownward = true)
    (position size : Nat) :
    expr.eval t'.navigator ⟨n', position, size⟩ =
      (expr.eval t.navigator ⟨n, position, size⟩).map (Answer.map fun m => n' + (m - n)) ∧
    (∀ found : List Nat, expr.eval t.navigator ⟨n, position, size⟩ = .ok (.nodes found) →
      ∀ m ∈ found, n ≤ m ∧ m < t.stop n) ∧
    ∀ document origin document' origin' : Nat,
      expr.eval Cursor.navigator ⟨⟨document', t', n', origin'⟩, position, size⟩ =
        (expr.eval Cursor.navigator ⟨⟨document, t, n, origin⟩, position, size⟩).map
          (Answer.map fun c => ⟨document', t', n' + (c.current - n), origin'⟩) := by
  obtain ⟨all, -, hTree⟩ := exists_depicts_of_build_eq_ok hBuild
  obtain ⟨all', -, hTree'⟩ := exists_depicts_of_build_eq_ok hBuild'
  obtain ⟨forest, hTwins⟩ := hSame.exists_twins hTree hTree' hId hId'
  have hAlike := hTwins.alike_eval hDown position size
  have hShift : ∀ m m', Abreast n n' (forestSize forest) m m' → m' = n' + (m - n) := by
    rintro _ _ ⟨offset, -, rfl, rfl⟩
    omega
  have hEval := hAlike.eq_map fun _ _ hAnswer => hAnswer.eq_map hShift
  refine ⟨hEval, fun found hFound m hMem => ?_, fun document origin document' origin' => ?_⟩
  · obtain ⟨m', offset, hOffset, rfl, -⟩ := hAlike.exists_related hFound m hMem
    rw [hTwins.left.stop_eq]
    omega
  · rw [Cursor.eval_eq, Cursor.eval_eq, hEval]
    cases expr.eval t.navigator ⟨n, position, size⟩ with
    | error e => rfl
    | ok answer =>
        refine congrArg Except.ok ?_
        rw [Answer.map_map, Answer.map_map]
        rfl

/-- The nodes of a sequence of true alone. -/
def single : Tree where
  nodes := #[
    { NodeData.document with firstChild := some 1, lastChild := some 1 },
    { NodeData.element "element" 1 with
      parent := some 0, firstChild := some 2, lastChild := some 2 },
    { NodeData.text (.boolean true) 2 with parent := some 1 }]

theorem build_single :
    build (.sequence [.scalar (.boolean true)]) = .ok single := by
  simp only [build, place, placeItems]
  rfl

theorem eval_downward_of_build_pair :
    build (.sequence [.scalar .null, .scalar (.boolean true)]) = .ok pair ∧
      build (.sequence [.scalar (.boolean true)]) = .ok single ∧ 3 < pair.size ∧ 1 < single.size ∧
      pair.SameSubtree 3 single 1 ∧
      (Expr.path false [.mk .descendant .anyText []]).isDownward = true ∧
      (Expr.path false [.mk .descendant .anyText []]).eval single.navigator ⟨1, 1, 1⟩ =
        .ok (.nodes [2]) := by
  have hSame : pair.SameSubtree 3 single 1 := ⟨rfl, rfl, rfl, rfl⟩
  exact ⟨build_pair, build_single, by decide, by decide, hSame, rfl,
    (eval_downward_of_build build_pair build_single (by decide) (by decide) hSame rfl 1 1).1.trans
      rfl⟩

end Tree

end CborPath
