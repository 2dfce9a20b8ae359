import CborPath.Proofs.Query.Axes
import CborPath.Proofs.Query.DocumentOrder
import CborPath.Proofs.Query.Typing

/-!
# Node-sets

Every node-set that evaluation gives is in document order and has no repetitions.  From one node a
step keeps the order of its axis, turned round if the axis leads back; from several nodes the step
sorts.  Sorting after every step would therefore give nothing else.
-/

namespace CborPath

section Lists

variable {ε α β : Type}

/-- A test keeps some elements and leaves their order alone. -/
theorem sublist_keepNumbered (test : Nat → α → Except ε Bool) (number : Nat) (xs : List α) :
    Yields (keepNumbered test number xs) fun kept => kept.Sublist xs := by
  induction xs generalizing number with
  | nil => exact yields_ok .slnil
  | cons x xs ih =>
      rw [keepNumbered]
      refine yields_bind fun keep => (ih (number + 1)).bind fun others hOthers => ?_
      cases keep with
      | true => exact yields_ok (hOthers.cons_cons x)
      | false => exact yields_ok (hOthers.cons x)

theorem yields_joinMap {f : α → Except ε (List β)} {xs : List α} {p : List β → Prop}
    (hNil : p []) (hAppend : ∀ ys zs, p ys → p zs → p (ys ++ zs))
    (h : ∀ x ∈ xs, Yields (f x) p) :
    Yields (joinMap f xs) p := by
  induction xs with
  | nil => exact yields_ok hNil
  | cons x xs ih =>
      rw [joinMap]
      refine (h x List.mem_cons_self).bind fun first hFirst => ?_
      refine (ih fun y hMem => h y (List.mem_cons_of_mem x hMem)).bind fun others hOthers => ?_
      exact yields_ok (hAppend first others hFirst hOthers)

theorem joinMap_singleton (f : α → Except ε (List β)) (x : α) :
    joinMap f [x] = f x := by
  rw [joinMap, joinMap]
  cases f x with
  | error e => rfl
  | ok ys => exact congrArg Except.ok (List.append_nil ys)

end Lists

section Sorting

variable {P : Type} (nav : Navigator P)

/-- Predicates keep some nodes and leave their order alone. -/
theorem sublist_evalPredicates (predicates : List Expr) (nodes : List P) :
    Yields (evalPredicates nav predicates nodes) fun kept => kept.Sublist nodes := by
  induction predicates generalizing nodes with
  | nil =>
      rw [evalPredicates]
      exact yields_ok (List.Sublist.refl nodes)
  | cons predicate rest ih =>
      rw [evalPredicates]
      refine (sublist_keepNumbered _ 1 nodes).bind fun kept hKept => ?_
      exact (ih kept).mono fun others hOthers => hOthers.trans hKept

/-- The nodes that steps lead to when every step sorts what it finds. -/
def evalStepsSorting : List Step → List P → Except EvalError (List P)
  | [], nodes => .ok nodes
  | step :: rest, nodes => do
      let found ← joinMap (step.select nav) nodes
      evalStepsSorting rest (nav.documentOrder found)

end Sorting

/-- Whether all positions of a list are those of nodes of a tree. -/
def Standing {P : Type} (t : Tree) (f : Nat → P) (nodes : List P) : Prop :=
  ∃ places : List Nat, nodes = places.map f ∧ ∀ m ∈ places, m < t.size

/-- Whether a list has the positions of nodes of a tree, each once and in document order. -/
def InOrder {P : Type} (t : Tree) (f : Nat → P) (nodes : List P) : Prop :=
  ∃ places : List Nat, nodes = places.map f ∧ places.Pairwise (· < ·) ∧ ∀ m ∈ places, m < t.size

/-- Whether an answer, if it is a node-set, is in document order. -/
def AnswersInOrder {P : Type} (t : Tree) (f : Nat → P) (answer : Answer P) : Prop :=
  ∀ nodes, answer = .nodes nodes → InOrder t f nodes

section InOrder

variable {P : Type} {t : Tree} {f : Nat → P} {nodes others : List P}

theorem standing_nil :
    Standing t f [] :=
  ⟨[], rfl, nofun⟩

theorem Standing.append (h : Standing t f nodes) (h' : Standing t f others) :
    Standing t f (nodes ++ others) := by
  obtain ⟨these, rfl, hThese⟩ := h
  obtain ⟨those, rfl, hThose⟩ := h'
  refine ⟨these ++ those, List.map_append.symm, fun m hMem => ?_⟩
  rcases List.mem_append.1 hMem with hFirst | hLater
  · exact hThese m hFirst
  · exact hThose m hLater

theorem InOrder.standing (h : InOrder t f nodes) :
    Standing t f nodes := by
  obtain ⟨places, hNodes, -, hSize⟩ := h
  exact ⟨places, hNodes, hSize⟩

theorem inOrder_singleton {m : Nat} (hSize : m < t.size) :
    InOrder t f [f m] := by
  refine ⟨[m], rfl, List.pairwise_singleton _ m, fun n hMem => ?_⟩
  rw [List.mem_singleton.1 hMem]
  exact hSize

/-- What is kept of a list in document order is in document order. -/
theorem InOrder.sublist (h : InOrder t f nodes) (hSub : others.Sublist nodes) :
    InOrder t f others := by
  obtain ⟨places, rfl, hRising, hSize⟩ := h
  obtain ⟨kept, hKept, rfl⟩ := List.sublist_map_iff.1 hSub
  exact ⟨kept, rfl, hRising.sublist hKept, fun m hMem => hSize m (hKept.subset hMem)⟩

theorem answersInOrder_nodes (h : InOrder t f nodes) :
    AnswersInOrder t f (.nodes nodes) := by
  intro others hEq
  cases hEq
  exact h

theorem AnswersInOrder.nodes? {answer : Answer P} (h : AnswersInOrder t f answer) :
    Yields answer.nodes? (InOrder t f) := by
  cases answer with
  | nodes nodes => exact yields_ok (h nodes rfl)
  | boolean b => exact yields_error _
  | number n => exact yields_error _
  | text s => exact yields_error _

variable {nav : Navigator P} (hPlaces : t.navigator.Places nav f)
include hPlaces

theorem Standing.documentOrder (h : Standing t f nodes) :
    InOrder t f (nav.documentOrder nodes) := by
  obtain ⟨places, rfl, hSize⟩ := h
  refine ⟨t.navigator.documentOrder places, hPlaces.documentOrder_eq places,
    t.pairwise_documentOrder places, fun m hMem => ?_⟩
  exact hSize m ((t.mem_documentOrder_iff places m).1 hMem)

theorem InOrder.documentOrder_eq (h : InOrder t f nodes) :
    nav.documentOrder nodes = nodes := by
  obtain ⟨places, rfl, hRising, -⟩ := h
  rw [hPlaces.documentOrder_eq, t.documentOrder_of_pairwise hRising]

end InOrder

namespace Tree

section Evaluation

variable {P : Type} {t : Tree} {all : List Outline} {f : Nat → P} {nav : Navigator P}
  (h : t.Depicts all) (hPlaces : t.navigator.Places nav f)
include h hPlaces

/-- Every axis leads to the nodes at the places that runs and parents tell. -/
theorem Depicts.axisNodes_eq {n : Nat} (hId : n < t.size) (axis : Axis) :
    nav.axisNodes (f n) axis = (t.axisPlaces n axis).map f := by
  rw [hPlaces.axisNodes_eq]
  exact congrArg _ (h.axisNodes_within hId (Nat.le_refl t.size) axis)

/-- What a step selects from one node is in document order. -/
theorem Depicts.inOrder_select {n : Nat} (hId : n < t.size) (step : Step) :
    Yields (step.select nav (f n)) (InOrder t f) := by
  cases step with
  | mk axis test predicates =>
      rw [Step.select]
      refine (sublist_evalPredicates nav predicates _).bind fun selected hSelected => yields_ok ?_
      have hSub := hSelected.trans List.filter_sublist
      rw [h.axisNodes_eq hPlaces hId axis] at hSub
      have hOrder := pairwise_axisPlaces t n axis
      have hSize : ∀ m ∈ t.axisPlaces n axis, m < t.size := fun m hMem =>
        h.lt_size_of_mem_axisPlaces hId hMem
      split at hOrder
      · have hTurned : InOrder t f ((t.axisPlaces n axis).map f).reverse := by
          refine ⟨(t.axisPlaces n axis).reverse, List.map_reverse.symm,
            List.pairwise_reverse.2 hOrder, fun m hMem => ?_⟩
          exact hSize m (List.mem_reverse.1 hMem)
        rw [if_pos ‹_›]
        exact hTurned.sublist hSub.reverse
      · have hStraight : InOrder t f ((t.axisPlaces n axis).map f) := ⟨_, rfl, hOrder, hSize⟩
        rw [if_neg ‹_›]
        exact hStraight.sublist hSub

theorem Depicts.standing_joinMap_select {nodes : List P} (hNodes : InOrder t f nodes)
    (step : Step) :
    Yields (joinMap (step.select nav) nodes) (Standing t f) := by
  obtain ⟨places, rfl, -, hSize⟩ := hNodes
  refine yields_joinMap standing_nil (fun _ _ => Standing.append) fun p hMem => ?_
  obtain ⟨m, hPlace, rfl⟩ := List.mem_map.1 hMem
  exact (h.inOrder_select hPlaces (hSize m hPlace) step).mono fun _ => InOrder.standing

/-- What a step makes of a node-set is in document order, sorted or not. -/
theorem Depicts.inOrder_step {nodes : List P} (hNodes : InOrder t f nodes) (step : Step) :
    Yields (joinMap (step.select nav) nodes) fun found =>
      InOrder t f (if nodes.length = 1 then found else nav.documentOrder found) := by
  have hFound := h.standing_joinMap_select hPlaces hNodes step
  obtain ⟨places, rfl, -, hSize⟩ := hNodes
  split
  · rename_i hSingle
    rw [List.length_map, List.length_eq_one_iff] at hSingle
    obtain ⟨m, rfl⟩ := hSingle
    rw [List.map_singleton, joinMap_singleton]
    exact h.inOrder_select hPlaces (hSize m List.mem_cons_self) step
  · exact hFound.mono fun found hStanding => hStanding.documentOrder hPlaces

/-- Steps lead from a node-set in document order to one in document order. -/
theorem Depicts.inOrder_evalSteps {nodes : List P} (hNodes : InOrder t f nodes)
    (steps : List Step) :
    Yields (evalSteps nav steps nodes) (InOrder t f) := by
  induction steps generalizing nodes with
  | nil =>
      rw [evalSteps]
      exact yields_ok hNodes
  | cons step rest ih =>
      rw [evalSteps]
      exact (h.inOrder_step hPlaces hNodes step).bind fun found hFound => ih hFound

theorem Depicts.evalSteps_eq_sorting {nodes : List P} (hNodes : InOrder t f nodes)
    (steps : List Step) :
    evalSteps nav steps nodes = evalStepsSorting nav steps nodes := by
  induction steps generalizing nodes with
  | nil => rw [evalSteps, evalStepsSorting]
  | cons step rest ih =>
      have hStep := h.inOrder_step hPlaces hNodes step
      rw [evalSteps, evalStepsSorting]
      cases hFound : joinMap (step.select nav) nodes with
      | error e => rfl
      | ok found =>
          have hOrder := hStep found hFound
          show evalSteps nav rest (if nodes.length = 1 then found else nav.documentOrder found) =
            evalStepsSorting nav rest (nav.documentOrder found)
          rw [ih hOrder]
          split at hOrder
          · rw [if_pos ‹_›, hOrder.documentOrder_eq hPlaces]
          · rw [if_neg ‹_›]

/-- A node-set that an expression evaluates to is in document order. -/
theorem Depicts.inOrder_eval {n : Nat} (hId : n < t.size) (position size : Nat) (expr : Expr) :
    Yields (expr.eval nav ⟨f n, position, size⟩) (AnswersInOrder t f) := by
  by_cases hType : expr.type = .nodeSet
  · rcases Expr.cases_of_type_eq_nodeSet hType with
      ⟨absolute, steps, rfl⟩ | ⟨primary, predicates, steps, rfl⟩ | ⟨left, right, rfl⟩
    · rw [Expr.eval]
      have hStart : InOrder t f [if absolute then nav.root (f n) else f n] := by
        cases absolute with
        | true =>
            rw [if_pos rfl, hPlaces.root_eq]
            exact inOrder_singleton h.lt_size
        | false => exact inOrder_singleton hId
      refine (h.inOrder_evalSteps hPlaces hStart steps).bind fun nodes hNodes => ?_
      exact yields_ok (answersInOrder_nodes hNodes)
    · rw [Expr.eval]
      refine (Depicts.inOrder_eval hId position size primary).bind fun answer hAnswer => ?_
      refine hAnswer.nodes?.bind fun candidates hCandidates => ?_
      refine (sublist_evalPredicates nav predicates candidates).bind fun kept hKept => ?_
      have hSteps := h.inOrder_evalSteps hPlaces (hCandidates.sublist hKept) steps
      exact hSteps.bind fun nodes hNodes => yields_ok (answersInOrder_nodes hNodes)
    · rw [Expr.eval]
      refine (Depicts.inOrder_eval hId position size left).bind fun answer hAnswer => ?_
      refine hAnswer.nodes?.bind fun these hThese => ?_
      refine (Depicts.inOrder_eval hId position size right).bind fun other hOther => ?_
      refine hOther.nodes?.bind fun those hThose => ?_
      have hBoth := hThese.standing.append hThose.standing
      exact yields_ok (answersInOrder_nodes (hBoth.documentOrder hPlaces))
  · intro answer hEval nodes hNodes
    have hSame := expr.yields_type_eval nav _ answer hEval
    rw [hNodes] at hSame
    exact absurd hSame.symm hType
termination_by sizeOf expr

end Evaluation

/-- In a tree that has been built, every node-set that an expression evaluates to has nodes of the
tree only, in rising order, for the tree's own navigator and for cursors; and steps from nodes in
rising order give what they would give if every step sorted what it finds. -/
theorem eval_inOrder_of_build {value : Value} {t : Tree} (hBuild : build value = .ok t) :
    (∀ (expr : Expr) (n position size : Nat) (found : List Nat), n < t.size →
      expr.eval t.navigator ⟨n, position, size⟩ = .ok (.nodes found) →
      (∀ m ∈ found, m < t.size) ∧ found.Pairwise (· < ·)) ∧
    (∀ (expr : Expr) (c : Cursor) (position size : Nat) (found : List Cursor), c.tree = t →
      c.current < t.size →
      expr.eval Cursor.navigator ⟨c, position, size⟩ = .ok (.nodes found) →
      (∀ d ∈ found, d.document = c.document ∧ d.tree = t ∧ d.current < t.size) ∧
        (found.map Cursor.current).Pairwise (· < ·)) ∧
    (∀ (steps : List Step) (start : List Nat), (∀ m ∈ start, m < t.size) →
      start.Pairwise (· < ·) →
      evalSteps t.navigator steps start = evalStepsSorting t.navigator steps start) ∧
    ∀ (steps : List Step) (document origin : Nat) (start : List Nat), (∀ m ∈ start, m < t.size) →
      start.Pairwise (· < ·) →
      evalSteps Cursor.navigator steps (start.map fun m => ⟨document, t, m, origin⟩) =
        evalStepsSorting Cursor.navigator steps (start.map fun m => ⟨document, t, m, origin⟩) := by
  obtain ⟨all, -, h⟩ := exists_depicts_of_build_eq_ok hBuild
  have hOwn : t.navigator.Places t.navigator id := t.navigator.places_self
  have hCursors := fun document origin => Cursor.places_navigator document t origin
  refine ⟨fun expr n position size found hId hEval => ?_,
    fun expr c position size found hTree hId hEval => ?_, fun steps start hSize hRising => ?_,
    fun steps document origin start hSize hRising => ?_⟩
  · obtain ⟨places, rfl, hRising, hSize⟩ :=
      h.inOrder_eval hOwn hId position size expr _ hEval found rfl
    rw [List.map_id]
    exact ⟨hSize, hRising⟩
  · obtain ⟨document, tree, current, origin⟩ := c
    cases hTree
    obtain ⟨places, rfl, hRising, hSize⟩ :=
      h.inOrder_eval (hCursors document origin) hId position size expr _ hEval found rfl
    constructor
    · intro d hMem
      obtain ⟨m, hPlace, rfl⟩ := List.mem_map.1 hMem
      exact ⟨rfl, rfl, hSize m hPlace⟩
    · rw [List.map_map]
      exact (List.map_id places).symm ▸ hRising
  · exact h.evalSteps_eq_sorting hOwn ⟨start, (List.map_id start).symm, hRising, hSize⟩ steps
  · exact h.evalSteps_eq_sorting (hCursors document origin) ⟨start, rfl, hRising, hSize⟩ steps

theorem eval_inOrder_of_build_pair :
    build (.sequence [.scalar .null, .scalar (.boolean true)]) = .ok pair ∧ 4 < pair.size ∧
      (Expr.path false [.mk .ancestorOrSelf .anyNode []]).eval pair.navigator ⟨4, 1, 1⟩ =
        .ok (.nodes [0, 3, 4]) ∧
      (∀ m ∈ [0, 3, 4], m < pair.size) ∧ [0, 3, 4].Pairwise (· < ·) := by
  have hEval : (Expr.path false [.mk .ancestorOrSelf .anyNode []]).eval pair.navigator ⟨4, 1, 1⟩ =
      .ok (.nodes [0, 3, 4]) := by
    rfl
  exact ⟨build_pair, by decide, hEval,
    (eval_inOrder_of_build build_pair).1 _ 4 1 1 _ (by decide) hEval⟩

end Tree

end CborPath
