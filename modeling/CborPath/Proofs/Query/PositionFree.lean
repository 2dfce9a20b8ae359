import CborPath.Proofs.Query.Unions
import CborPath.Query.Scope

/-!
# Position-free predicates

A predicate that is no number and does not ask for position or size says the same of a node wherever
the node stands in a list.  So it may be asked of each context node's candidates or of all candidates
put together, and predicates of this kind may be exchanged and joined.
-/

namespace CborPath

section Position

variable {P : Type} (nav : Navigator P)

theorem NullaryFunction.apply_eq_of_not_usesPosition {f : NullaryFunction}
    (h : f.usesPosition = false) (context other : Context P) :
    f.apply context = f.apply other := by
  cases f with
  | last => cases h
  | position => cases h
  | alwaysTrue => rfl
  | alwaysFalse => rfl

mutual

/-- An expression that does not ask for position and size has the same value wherever its node
stands. -/
theorem Expr.eval_eq_of_not_usesPosition (expr : Expr) (h : expr.usesPosition = false)
    {context other : Context P} (hNode : context.node = other.node) :
    expr.eval nav context = expr.eval nav other := by
  cases expr with
  | path absolute steps => rw [Expr.eval, Expr.eval, hNode]
  | filter primary predicates steps =>
      rw [Expr.usesPosition] at h
      rw [Expr.eval, Expr.eval, primary.eval_eq_of_not_usesPosition h hNode]
  | union left right =>
      rw [Expr.usesPosition, Bool.or_eq_false_iff] at h
      rw [Expr.eval, Expr.eval, left.eval_eq_of_not_usesPosition h.1 hNode,
        right.eval_eq_of_not_usesPosition h.2 hNode]
  | or left right =>
      rw [Expr.usesPosition, Bool.or_eq_false_iff] at h
      rw [Expr.eval, Expr.eval, left.eval_eq_of_not_usesPosition h.1 hNode,
        right.eval_eq_of_not_usesPosition h.2 hNode]
  | and left right =>
      rw [Expr.usesPosition, Bool.or_eq_false_iff] at h
      rw [Expr.eval, Expr.eval, left.eval_eq_of_not_usesPosition h.1 hNode,
        right.eval_eq_of_not_usesPosition h.2 hNode]
  | compare op left right =>
      rw [Expr.usesPosition, Bool.or_eq_false_iff] at h
      rw [Expr.eval, Expr.eval, left.eval_eq_of_not_usesPosition h.1 hNode,
        right.eval_eq_of_not_usesPosition h.2 hNode]
  | arithmetic op left right =>
      rw [Expr.usesPosition, Bool.or_eq_false_iff] at h
      rw [Expr.eval, Expr.eval, left.eval_eq_of_not_usesPosition h.1 hNode,
        right.eval_eq_of_not_usesPosition h.2 hNode]
  | negate operand =>
      rw [Expr.usesPosition] at h
      rw [Expr.eval, Expr.eval, operand.eval_eq_of_not_usesPosition h hNode]
  | number n => rw [Expr.eval, Expr.eval]
  | literal s => rw [Expr.eval, Expr.eval]
  | nullary f =>
      rw [Expr.usesPosition] at h
      rw [Expr.eval, Expr.eval, f.apply_eq_of_not_usesPosition h context other]
  | unary f argument =>
      rw [Expr.usesPosition] at h
      rw [Expr.eval, Expr.eval, argument.eval_eq_of_not_usesPosition h hNode]
  | ofContext f => rw [Expr.eval, Expr.eval, hNode]
  | ofArgument f argument =>
      rw [Expr.usesPosition] at h
      rw [Expr.eval, Expr.eval, argument.eval_eq_of_not_usesPosition h hNode]
  | binary f first second =>
      rw [Expr.usesPosition, Bool.or_eq_false_iff] at h
      rw [Expr.eval, Expr.eval, first.eval_eq_of_not_usesPosition h.1 hNode,
        second.eval_eq_of_not_usesPosition h.2 hNode]
  | substringFrom text start =>
      rw [Expr.usesPosition, Bool.or_eq_false_iff] at h
      rw [Expr.eval, Expr.eval, text.eval_eq_of_not_usesPosition h.1 hNode,
        start.eval_eq_of_not_usesPosition h.2 hNode]
  | substring text start length =>
      rw [Expr.usesPosition, Bool.or_eq_false_iff, Bool.or_eq_false_iff] at h
      rw [Expr.eval, Expr.eval, text.eval_eq_of_not_usesPosition h.1.1 hNode,
        start.eval_eq_of_not_usesPosition h.1.2 hNode,
        length.eval_eq_of_not_usesPosition h.2 hNode]
  | translate text source target =>
      rw [Expr.usesPosition, Bool.or_eq_false_iff, Bool.or_eq_false_iff] at h
      rw [Expr.eval, Expr.eval, text.eval_eq_of_not_usesPosition h.1.1 hNode,
        source.eval_eq_of_not_usesPosition h.1.2 hNode,
        target.eval_eq_of_not_usesPosition h.2 hNode]
  | concat first second others =>
      rw [Expr.usesPosition, Bool.or_eq_false_iff, Bool.or_eq_false_iff] at h
      rw [Expr.eval, Expr.eval, first.eval_eq_of_not_usesPosition h.1.1 hNode,
        second.eval_eq_of_not_usesPosition h.1.2 hNode,
        evalTexts_eq_of_not_usesPosition others h.2 hNode]

theorem evalTexts_eq_of_not_usesPosition (exprs : List Expr) (h : anyUsesPosition exprs = false)
    {context other : Context P} (hNode : context.node = other.node) :
    evalTexts nav context exprs = evalTexts nav other exprs := by
  cases exprs with
  | nil => rw [evalTexts, evalTexts]
  | cons expr rest =>
      rw [anyUsesPosition, Bool.or_eq_false_iff] at h
      rw [evalTexts, evalTexts, expr.eval_eq_of_not_usesPosition h.1 hNode,
        evalTexts_eq_of_not_usesPosition rest h.2 hNode]

end

/-- The truth value of an expression at a node on its own. -/
def Expr.truthAt (expr : Expr) (node : P) : Except EvalError Bool := do
  return (← expr.evaluate nav node).toBoolean

/-- Whether an expression has a value at a node on its own, and one that counts as true. -/
def Expr.holdsAt (expr : Expr) (node : P) : Bool :=
  match expr.truthAt nav node with
  | .ok truth => truth
  | .error _ => false

theorem Expr.truthAt_eq_holdsAt {expr : Expr} {node : P}
    (h : ∃ answer, expr.evaluate nav node = .ok answer) :
    expr.truthAt nav node = .ok (expr.holdsAt nav node) := by
  obtain ⟨answer, hAnswer⟩ := h
  rw [Expr.holdsAt, Expr.truthAt, hAnswer]
  rfl

/-- A position-free predicate keeps the nodes at which it is true. -/
theorem Expr.keeps_eq_truthAt {predicate : Expr} (h : predicate.isPositionFree = true) (node : P)
    (position size : Nat) :
    (do return (← predicate.eval nav ⟨node, position, size⟩).keeps position) =
      predicate.truthAt nav node := by
  rw [Expr.isPositionFree, Bool.and_eq_true, decide_eq_true_eq, Bool.not_eq_true'] at h
  have hType := predicate.yields_type_eval nav ⟨node, 1, 1⟩
  have hSame : predicate.eval nav ⟨node, position, size⟩ = predicate.eval nav ⟨node, 1, 1⟩ :=
    predicate.eval_eq_of_not_usesPosition nav h.2 rfl
  rw [Expr.truthAt, Expr.evaluate, hSame]
  cases hEval : predicate.eval nav ⟨node, 1, 1⟩ with
  | error e => rfl
  | ok answer =>
      cases answer with
      | nodes positions => rfl
      | boolean b => rfl
      | number n => exact absurd (hType _ hEval).symm h.1
      | text s => rfl

theorem evalPredicates_cons_of_isPositionFree {predicate : Expr}
    (h : predicate.isPositionFree = true) (rest : List Expr) (nodes : List P) :
    evalPredicates nav (predicate :: rest) nodes =
      keepNumbered (fun _ => predicate.truthAt nav) 1 nodes >>= evalPredicates nav rest := by
  rw [evalPredicates]
  simp only [predicate.keeps_eq_truthAt nav h]

end Position

section Keeping

variable {ε α : Type} {xs : List α}

/-- A test that is not told the numbers looks at each element alone. -/
theorem isUnion_keepNumbered (test : α → Except ε Bool) (number : Nat) (xs : List α) :
    IsUnion (keepNumbered (fun _ => test) number xs)
      (fun x => keepNumbered (fun _ => test) 1 [x]) xs := by
  have hJoin : keepNumbered (fun _ => test) number xs =
      joinMap (fun x => keepNumbered (fun _ => test) 1 [x]) xs := by
    induction xs generalizing number with
    | nil => rfl
    | cons x xs ih =>
        rw [joinMap, keepNumbered, ih, keepNumbered, keepNumbered]
        cases test x with
        | error e => rfl
        | ok keep =>
            cases joinMap (fun x => keepNumbered (fun _ => test) 1 [x]) xs with
            | error e => rfl
            | ok others => cases keep <;> rfl
  rw [hJoin]
  exact isUnion_joinMap _ xs

theorem keepNumbered_eq_filter {test : α → Except ε Bool} {keep : α → Bool}
    (h : ∀ x ∈ xs, test x = .ok (keep x)) (number : Nat) :
    keepNumbered (fun _ => test) number xs = .ok (xs.filter keep) := by
  induction xs generalizing number with
  | nil => rfl
  | cons x xs ih =>
      rw [keepNumbered, h x List.mem_cons_self,
        ih (fun y hMem => h y (List.mem_cons_of_mem x hMem)), List.filter_cons]
      rfl

end Keeping

section Predicates

variable {P : Type} (nav : Navigator P) {p q : Expr} {nodes : List P}

/-- Position-free predicates look at each node alone. -/
theorem isUnion_evalPredicates {predicates : List Expr}
    (h : ∀ predicate ∈ predicates, predicate.isPositionFree = true) (nodes : List P) :
    IsUnion (evalPredicates nav predicates nodes)
      (fun node => evalPredicates nav predicates [node]) nodes := by
  induction predicates generalizing nodes with
  | nil =>
      simp only [evalPredicates]
      refine ⟨⟨fun _ node _ => ⟨[node], rfl⟩, fun _ => ⟨nodes, rfl⟩⟩, ?_⟩
      rintro _ ⟨⟩ p
      simp
  | cons predicate rest ih =>
      have hFree := h predicate List.mem_cons_self
      have hRest := ih fun other hMem => h other (List.mem_cons_of_mem predicate hMem)
      simp only [evalPredicates_cons_of_isPositionFree nav hFree]
      exact (isUnion_keepNumbered (predicate.truthAt nav) 1 nodes).bind (fun kept _ => hRest kept)
        fun node _ own _ => hRest own

/-- A predicate that has a value at every node keeps those where it is true. -/
theorem evalPredicates_cons_eq_filter (h : p.isPositionFree = true)
    (hAll : ∀ node ∈ nodes, ∃ answer, p.evaluate nav node = .ok answer) (rest : List Expr) :
    evalPredicates nav (p :: rest) nodes =
      evalPredicates nav rest (nodes.filter (p.holdsAt nav)) := by
  rw [evalPredicates_cons_of_isPositionFree nav h,
    keepNumbered_eq_filter fun node hMem => p.truthAt_eq_holdsAt nav (hAll node hMem)]
  rfl

theorem Expr.isPositionFree_and (hLeft : p.isPositionFree = true) (hRight : q.isPositionFree = true) :
    (Expr.and p q).isPositionFree = true := by
  rw [Expr.isPositionFree, Bool.and_eq_true, decide_eq_true_eq, Bool.not_eq_true'] at hLeft hRight ⊢
  refine ⟨nofun, ?_⟩
  rw [Expr.usesPosition, hLeft.2, hRight.2]
  rfl

/-- A conjunction is true at the nodes at which both of its parts are. -/
theorem Expr.holdsAt_and {node : P} (hLeft : ∃ answer, p.evaluate nav node = .ok answer)
    (hRight : ∃ answer, q.evaluate nav node = .ok answer) :
    (∃ answer, (Expr.and p q).evaluate nav node = .ok answer) ∧
      (Expr.and p q).holdsAt nav node = (p.holdsAt nav node && q.holdsAt nav node) := by
  obtain ⟨x, hLeft⟩ := hLeft
  obtain ⟨y, hRight⟩ := hRight
  have hBoth : (Expr.and p q).evaluate nav node = .ok (.boolean (x.toBoolean && y.toBoolean)) := by
    rw [Expr.evaluate] at hLeft hRight
    rw [Expr.evaluate, Expr.eval, hLeft, hRight]
    show (if x.toBoolean = true then _ else _) = _
    cases x.toBoolean <;> rfl
  refine ⟨⟨_, hBoth⟩, ?_⟩
  rw [Expr.holdsAt, Expr.holdsAt, Expr.holdsAt, Expr.truthAt, Expr.truthAt, Expr.truthAt, hBoth,
    hLeft, hRight]
  rfl

theorem isPositionFree_of_mem_pair (hLeft : p.isPositionFree = true)
    (hRight : q.isPositionFree = true) :
    ∀ predicates ∈ [[p, q], [q, p], [Expr.and p q]],
      ∀ predicate ∈ predicates, predicate.isPositionFree = true := by
  simp only [List.forall_mem_cons, List.not_mem_nil, false_implies, implies_true, and_true]
  exact ⟨⟨hLeft, hRight⟩, ⟨hRight, hLeft⟩, Expr.isPositionFree_and hLeft hRight⟩

/-- Two predicates in either order, and their conjunction, keep the nodes at which both are true. -/
theorem evalPredicates_pair_eq_filter (hLeft : p.isPositionFree = true)
    (hRight : q.isPositionFree = true)
    (hAll : ∀ node ∈ nodes, (∃ answer, p.evaluate nav node = .ok answer) ∧
      ∃ answer, q.evaluate nav node = .ok answer) :
    ∀ predicates ∈ [[p, q], [q, p], [Expr.and p q]], evalPredicates nav predicates nodes =
      .ok (nodes.filter fun node => p.holdsAt nav node && q.holdsAt nav node) := by
  have hKept : ∀ (keep : P → Bool), ∀ node ∈ nodes.filter keep, node ∈ nodes :=
    fun keep node hMem => (List.mem_filter.1 hMem).1
  simp only [List.forall_mem_cons, List.not_mem_nil, false_implies, implies_true, and_true]
  refine ⟨?_, ?_, ?_⟩
  · rw [evalPredicates_cons_eq_filter nav hLeft fun node hMem => (hAll node hMem).1,
      evalPredicates_cons_eq_filter nav hRight fun node hMem => (hAll node (hKept _ node hMem)).2,
      evalPredicates, List.filter_filter]
    simp only [Bool.and_comm]
  · rw [evalPredicates_cons_eq_filter nav hRight fun node hMem => (hAll node hMem).2,
      evalPredicates_cons_eq_filter nav hLeft fun node hMem => (hAll node (hKept _ node hMem)).1,
      evalPredicates, List.filter_filter]
  · have hAnd := fun node hMem => Expr.holdsAt_and nav (hAll node hMem).1 (hAll node hMem).2
    rw [evalPredicates_cons_eq_filter nav (Expr.isPositionFree_and hLeft hRight)
      fun node hMem => (hAnd node hMem).1, evalPredicates]
    exact congrArg Except.ok (List.filter_congr fun node hMem => (hAnd node hMem).2)

end Predicates

section Steps

variable {P : Type} (nav : Navigator P)

theorem mem_turned_iff (turn : Bool) (nodes : List P) (p : P) :
    p ∈ (if turn then nodes.reverse else nodes) ↔ p ∈ nodes := by
  cases turn <;> simp

/-- Position-free predicates of a step keep what they keep of the nodes that the step finds without
them. -/
theorem sameMembers_select (axis : Axis) (test : NodeTest) {predicates : List Expr}
    (hFree : ∀ predicate ∈ predicates, predicate.isPositionFree = true) (node : P) :
    SameMembers ((Step.mk axis test predicates).select nav node)
      ((Step.mk axis test []).select nav node >>= evalPredicates nav predicates) := by
  rw [Step.select, Step.select, evalPredicates]
  have hKept : IsUnion
      (evalPredicates nav predicates ((nav.axisNodes node axis).filter (nav.passes · test)) >>=
        fun kept => .ok (if axis.isReverse then kept.reverse else kept))
      (fun node => evalPredicates nav predicates [node])
      ((nav.axisNodes node axis).filter (nav.passes · test)) :=
    (isUnion_evalPredicates nav hFree _).map fun kept _ => mem_turned_iff axis.isReverse kept
  exact hKept.sameMembers (isUnion_evalPredicates nav hFree _)
    (fun p => (mem_turned_iff axis.isReverse _ p).symm) fun _ _ => .refl _

end Steps

namespace Tree

section Evaluation

variable {P : Type} {t : Tree} {all : List Outline} {f : Nat → P} {nav : Navigator P}
  (h : t.Depicts all) (hPlaces : t.navigator.Places nav f) (axis : Axis) (test : NodeTest)
include h hPlaces

/-- Position-free predicates may be asked of each context node's candidates or of all of them
together. -/
theorem Depicts.sameResult_predicates {start : List P} (hStart : InOrder t f start)
    {predicates : List Expr}
    (hFree : ∀ predicate ∈ predicates, predicate.isPositionFree = true) :
    SameResult (evalSteps nav [.mk axis test predicates] start)
      (evalSteps nav [.mk axis test []] start >>= evalPredicates nav predicates) := by
  have hAsked := isUnion_evalPredicates nav hFree
  have hFound := h.inOrder_evalSteps hPlaces hStart [.mk axis test []]
  have hTogether := (h.isUnion_step hPlaces hStart (.mk axis test [])).bind
    (fun found _ => hAsked found) fun node _ own _ => hAsked own
  have hEach := h.isUnion_step hPlaces hStart (.mk axis test predicates)
  refine (hEach.sameMembers hTogether (fun _ => .rfl) fun node _ =>
    sameMembers_select nav axis test hFree node).sameResult hPlaces
    (h.inOrder_evalSteps hPlaces hStart _) (hFound.bind fun found hOrder => ?_)
  exact (sublist_evalPredicates nav predicates found).mono fun kept hKept => hOrder.sublist hKept

variable {context : Context P} {n : Nat} (hId : n < t.size) (hContext : context.node = f n)
include hId hContext

theorem Depicts.sameResult_filter_predicates (start : Expr) {predicates : List Expr}
    (hFree : ∀ predicate ∈ predicates, predicate.isPositionFree = true) :
    SameResult ((start.followedBy [.mk axis test predicates]).eval nav context)
      ((Expr.filter (start.followedBy [.mk axis test []]) predicates []).eval nav context) := by
  refine Expr.sameResult_eval nav context (start.type_followedBy _) rfl fun nodes => ?_
  rw [Expr.nodesAt_filter, Expr.nodesAt_followedBy, Expr.nodesAt_followedBy, bind_assoc,
    bind_eq_ok_iff, bind_eq_ok_iff]
  refine exists_congr fun first => and_congr_right fun hFirst => ?_
  have hOrder := h.inOrder_nodesAt hPlaces hId hContext start first hFirst
  simp only [bind_evalSteps_nil]
  exact h.sameResult_predicates hPlaces axis test hOrder hFree nodes

end Evaluation

/-- Position-free predicates in a tree that has been built.  Asked within a step, of the candidates of
each context node, they keep what they keep of all the step's nodes as a filter, and they fail together.
Where two of them have values at all candidates, both orders and the conjunction keep the candidates at
which both are true.  This holds for every navigator that stands on the places of the tree, as the tree's
own and cursors do. -/
theorem eval_positionFree_of_build {value : Value} {t : Tree} (hBuild : build value = .ok t)
    {P : Type} {nav : Navigator P} {f : Nat → P} (hPlaces : t.navigator.Places nav f) {n : Nat}
    (hId : n < t.size) {context : Context P} (hContext : context.node = f n) (axis : Axis)
    (test : NodeTest) :
    (∀ (start : List P) (predicates : List Expr), InOrder t f start →
      (∀ predicate ∈ predicates, predicate.isPositionFree = true) →
      SameResult (evalSteps nav [.mk axis test predicates] start)
        (evalSteps nav [.mk axis test []] start >>= evalPredicates nav predicates)) ∧
    (∀ (start : Expr) (predicates : List Expr),
      (∀ predicate ∈ predicates, predicate.isPositionFree = true) →
      SameResult ((start.followedBy [.mk axis test predicates]).eval nav context)
        ((Expr.filter (start.followedBy [.mk axis test []]) predicates []).eval nav context)) ∧
    ∀ (start p q : Expr) (candidates : List P), p.isPositionFree = true →
      q.isPositionFree = true →
      (start.followedBy [.mk axis test []]).eval nav context = .ok (.nodes candidates) →
      (∀ node ∈ candidates, (∃ answer, p.evaluate nav node = .ok answer) ∧
        ∃ answer, q.evaluate nav node = .ok answer) →
      ∀ predicates ∈ [[p, q], [q, p], [Expr.and p q]],
        (start.followedBy [.mk axis test predicates]).eval nav context =
          .ok (.nodes (candidates.filter fun node => p.holdsAt nav node && q.holdsAt nav node)) ∧
        (Expr.filter (start.followedBy [.mk axis test []]) predicates []).eval nav context =
          .ok (.nodes (candidates.filter fun node => p.holdsAt nav node && q.holdsAt nav node)) := by
  obtain ⟨all, -, h⟩ := exists_depicts_of_build_eq_ok hBuild
  refine ⟨fun start predicates hStart hFree => ?_, fun start predicates hFree => ?_,
    fun start p q candidates hLeft hRight hCandidates hAll predicates hMem => ?_⟩
  · exact h.sameResult_predicates hPlaces axis test hStart hFree
  · exact h.sameResult_filter_predicates hPlaces axis test hId hContext start hFree
  · have hFree : ∀ predicate ∈ predicates, predicate.isPositionFree = true :=
      isPositionFree_of_mem_pair hLeft hRight predicates hMem
    have hKept := evalPredicates_pair_eq_filter nav hLeft hRight hAll predicates hMem
    have hFilter : (Expr.filter (start.followedBy [.mk axis test []]) predicates []).eval nav
        context = .ok (.nodes (candidates.filter fun node =>
          p.holdsAt nav node && q.holdsAt nav node)) := by
      rw [← Expr.nodesAt_eq_ok_iff] at hCandidates ⊢
      rw [Expr.nodesAt_filter]
      refine bind_eq_ok hCandidates (bind_eq_ok hKept ?_)
      rw [evalSteps]
    have hSame := h.sameResult_filter_predicates hPlaces axis test hId hContext start hFree
    exact ⟨(hSame _).2 hFilter, hFilter⟩

theorem eval_positionFree_of_build_pair :
    build (.sequence [.scalar .null, .scalar (.boolean true)]) = .ok pair ∧
      pair.navigator.Places pair.navigator id ∧ 0 < pair.size ∧
      (Expr.path false [.mk .following .anyNode []]).isPositionFree = true ∧
      (Expr.unary .not (.path false [.mk .child .anyNode []])).isPositionFree = true ∧
      ((Expr.path false [.mk .child .anyElement []]).followedBy [.mk .child .anyText []]).eval
        pair.navigator ⟨0, 1, 1⟩ = .ok (.nodes [2, 4]) ∧
      ((Expr.path false [.mk .child .anyElement []]).followedBy [.mk .child .anyText
        [.unary .not (.path false [.mk .child .anyNode []]),
          .path false [.mk .following .anyNode []]]]).eval
            pair.navigator ⟨0, 1, 1⟩ = .ok (.nodes [2]) := by
  have hCandidates : ((Expr.path false [.mk .child .anyElement []]).followedBy
      [.mk .child .anyText []]).eval pair.navigator ⟨0, 1, 1⟩ = .ok (.nodes [2, 4]) := by
    show Except.ok (Answer.nodes (pair.navigator.documentOrder [2, 4])) = _
    rw [pair.documentOrder_of_pairwise (by decide)]
  have hAll : ∀ node ∈ [2, 4],
      (∃ answer, (Expr.path false [.mk .following .anyNode []]).evaluate pair.navigator node =
        .ok answer) ∧
      ∃ answer, (Expr.unary .not (.path false [.mk .child .anyNode []])).evaluate
        pair.navigator node = .ok answer := by
    simp only [List.forall_mem_cons, List.not_mem_nil, false_implies, implies_true, and_true]
    exact ⟨⟨⟨_, rfl⟩, ⟨_, rfl⟩⟩, ⟨⟨_, rfl⟩, ⟨_, rfl⟩⟩⟩
  refine ⟨build_pair, pair.navigator.places_self, by decide, by decide, by decide, hCandidates, ?_⟩
  exact ((eval_positionFree_of_build build_pair pair.navigator.places_self (by decide)
    (show (Context.mk 0 1 1).node = id 0 from rfl) .child .anyText).2.2 _ _ _ [2, 4]
    (by decide) (by decide) hCandidates hAll _ (.tail _ (.head _))).1.trans rfl

end Tree

end CborPath
