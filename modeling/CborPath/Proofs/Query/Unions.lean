import CborPath.Proofs.Query.Composition

/-!
# Unions

The union of two expressions has the nodes that either of them has, each once and in document order,
and it fails if one of them fails.  Node-sets in document order are told by their members, so the order
and the grouping of the operands do not matter.  Steps from a union lead to what they lead to from each
operand: both are what the steps find from every single node, put together.
-/

namespace CborPath

section Members

variable {ε α β : Type}

/-- Whether two outcomes are both failures, or lists with the same members. -/
structure SameMembers (outcome other : Except ε (List β)) : Prop where
  exists_iff : (∃ ys, outcome = .ok ys) ↔ ∃ zs, other = .ok zs
  mem_iff : ∀ ys zs, outcome = .ok ys → other = .ok zs → ∀ y, y ∈ ys ↔ y ∈ zs

variable {outcome other : Except ε (List β)} {f : α → Except ε (List β)} {xs ys : List α}

/-- Unions over lists with the same members, of parts with the same members, have the same members. -/
theorem IsUnion.sameMembers {g : α → Except ε (List β)} (h : IsUnion outcome f xs)
    (hOther : IsUnion other g ys) (hMem : ∀ x, x ∈ xs ↔ x ∈ ys)
    (hParts : ∀ x ∈ xs, SameMembers (f x) (g x)) :
    SameMembers outcome other := by
  constructor
  · rw [h.exists_iff, hOther.exists_iff]
    constructor
    · exact fun hAll x hX =>
        (hParts x ((hMem x).2 hX)).exists_iff.1 (hAll x ((hMem x).2 hX))
    · exact fun hAll x hX => (hParts x hX).exists_iff.2 (hAll x ((hMem x).1 hX))
  · intro these those hThese hThose y
    rw [h.mem_iff these hThese, hOther.mem_iff those hThose]
    constructor
    · rintro ⟨x, hX, own, hOwn, hY⟩
      obtain ⟨own', hOwn'⟩ := (hParts x hX).exists_iff.1 ⟨own, hOwn⟩
      exact ⟨x, (hMem x).1 hX, own', hOwn', ((hParts x hX).mem_iff own own' hOwn hOwn' y).1 hY⟩
    · rintro ⟨x, hX, own, hOwn, hY⟩
      have hPart := hParts x ((hMem x).2 hX)
      obtain ⟨own', hOwn'⟩ := hPart.exists_iff.2 ⟨own, hOwn⟩
      exact ⟨x, (hMem x).2 hX, own', hOwn', (hPart.mem_iff own' own hOwn' hOwn y).2 hY⟩

theorem SameMembers.refl (outcome : Except ε (List β)) :
    SameMembers outcome outcome := by
  refine ⟨.rfl, fun these those hThese hThose y => ?_⟩
  cases hThese.symm.trans hThose
  exact .rfl

/-- One union after the other is a union over both lists. -/
theorem IsUnion.append (h : IsUnion outcome f xs) (hOther : IsUnion other f ys) :
    IsUnion (outcome >>= fun these => other >>= fun those => .ok (these ++ those)) f (xs ++ ys) := by
  constructor
  · rw [List.forall_mem_append, ← h.exists_iff, ← hOther.exists_iff]
    constructor
    · rintro ⟨both, hBoth⟩
      obtain ⟨these, hThese, hRest⟩ := bind_eq_ok_iff.1 hBoth
      obtain ⟨those, hThose, -⟩ := bind_eq_ok_iff.1 hRest
      exact ⟨⟨these, hThese⟩, ⟨those, hThose⟩⟩
    · rintro ⟨⟨these, hThese⟩, ⟨those, hThose⟩⟩
      exact ⟨these ++ those, bind_eq_ok hThese (bind_eq_ok hThose rfl)⟩
  · intro both hBoth y
    obtain ⟨these, hThese, hRest⟩ := bind_eq_ok_iff.1 hBoth
    obtain ⟨those, hThose, hEq⟩ := bind_eq_ok_iff.1 hRest
    cases hEq
    simp only [List.mem_append, h.mem_iff these hThese, hOther.mem_iff those hThose, or_and_right,
      exists_or]

end Members

section InOrder

variable {P : Type} {t : Tree} {f : Nat → P} {nav : Navigator P} {nodes others : List P}
  (hPlaces : t.navigator.Places nav f)
include hPlaces

/-- Different nodes have different positions. -/
theorem Navigator.Places.position_injective {m n : Nat} (hEq : f m = f n) :
    m = n := by
  have hSame := hPlaces.same_eq m n
  rw [hEq, hPlaces.same_eq n n] at hSame
  exact beq_iff_eq.1 (hSame.symm.trans (beq_self_eq_true n))

/-- Node-sets in document order are told by their members. -/
theorem InOrder.eq_of_mem_iff (h : InOrder t f nodes) (hOther : InOrder t f others)
    (hMem : ∀ p, p ∈ nodes ↔ p ∈ others) :
    nodes = others := by
  obtain ⟨these, rfl, hThese, -⟩ := h
  obtain ⟨those, rfl, hThose, -⟩ := hOther
  have hPlace : ∀ (places : List Nat) m, f m ∈ places.map f ↔ m ∈ places := fun places m =>
    List.mem_map_of_injective fun _ _ => hPlaces.position_injective
  refine congrArg _ (hThese.eq_of_mem_iff hThose fun m => ?_)
  rw [← hPlace these, hMem, hPlace those]

theorem SameMembers.sameResult {outcome other : Except EvalError (List P)}
    (h : SameMembers outcome other) (hOutcome : Yields outcome (InOrder t f))
    (hOther : Yields other (InOrder t f)) :
    SameResult outcome other := by
  have hEq : ∀ these those, outcome = .ok these → other = .ok those → these = those :=
    fun these those hThese hThose => (hOutcome these hThese).eq_of_mem_iff hPlaces
      (hOther those hThose) (h.mem_iff these those hThese hThose)
  intro nodes
  constructor
  · intro hNodes
    obtain ⟨those, hThose⟩ := h.exists_iff.1 ⟨nodes, hNodes⟩
    rw [hEq nodes those hNodes hThose, hThose]
  · intro hNodes
    obtain ⟨these, hThese⟩ := h.exists_iff.2 ⟨nodes, hNodes⟩
    rw [← hEq these nodes hThese hNodes, hThese]

end InOrder

section NodeSets

variable {P : Type} (nav : Navigator P)

/-- Where no steps follow, the nodes are left as they are. -/
theorem bind_evalSteps_nil (outcome : Except EvalError (List P)) :
    outcome >>= evalSteps nav [] = outcome := by
  cases outcome with
  | error e => rfl
  | ok nodes =>
      show evalSteps nav [] nodes = .ok nodes
      rw [evalSteps]

variable (context : Context P)

/-- The node-set of an expression in a context. -/
def Expr.nodesAt (expr : Expr) : Except EvalError (List P) := do
  (← expr.eval nav context).nodes?

theorem Expr.nodesAt_eq_ok_iff {expr : Expr} {nodes : List P} :
    expr.nodesAt nav context = .ok nodes ↔ expr.eval nav context = .ok (.nodes nodes) := by
  rw [Expr.nodesAt]
  cases expr.eval nav context with
  | error e => exact ⟨nofun, nofun⟩
  | ok answer =>
      cases answer with
      | nodes found =>
          constructor
          · rintro ⟨⟩
            rfl
          · rintro ⟨⟩
            rfl
      | boolean b => exact ⟨nofun, nofun⟩
      | number n => exact ⟨nofun, nofun⟩
      | text s => exact ⟨nofun, nofun⟩

theorem Answer.exists_eq_nodes {answer : Answer P} (hType : answer.type = .nodeSet) :
    ∃ nodes, answer = .nodes nodes := by
  cases answer with
  | nodes nodes => exact ⟨nodes, rfl⟩
  | boolean b => cases hType
  | number n => cases hType
  | text s => cases hType

/-- An expression that stands for a node-set evaluates to its node-set. -/
theorem Expr.eval_eq_nodesAt {expr : Expr} (hType : expr.type = .nodeSet) :
    expr.eval nav context = expr.nodesAt nav context >>= fun nodes => .ok (.nodes nodes) := by
  have hAnswer := expr.yields_type_eval nav context
  rw [Expr.nodesAt]
  cases hEval : expr.eval nav context with
  | error e => rfl
  | ok answer =>
      obtain ⟨nodes, rfl⟩ := Answer.exists_eq_nodes ((hAnswer answer hEval).trans hType)
      rfl

/-- Expressions for node-sets have the same value if they have the same nodes. -/
theorem Expr.sameResult_eval {left right : Expr} (hLeft : left.type = .nodeSet)
    (hRight : right.type = .nodeSet)
    (h : SameResult (left.nodesAt nav context) (right.nodesAt nav context)) :
    SameResult (left.eval nav context) (right.eval nav context) := by
  rw [left.eval_eq_nodesAt nav context hLeft, right.eval_eq_nodesAt nav context hRight]
  exact h.bind fun nodes => SameResult.refl _

theorem Expr.nodesAt_path (absolute : Bool) (steps : List Step) :
    (Expr.path absolute steps).nodesAt nav context =
      evalSteps nav steps [if absolute then nav.root context.node else context.node] := by
  rw [Expr.nodesAt, Expr.eval]
  cases evalSteps nav steps [if absolute then nav.root context.node else context.node] <;> rfl

theorem Expr.nodesAt_filter (primary : Expr) (predicates : List Expr) (steps : List Step) :
    (Expr.filter primary predicates steps).nodesAt nav context =
      primary.nodesAt nav context >>= fun candidates =>
        evalPredicates nav predicates candidates >>= evalSteps nav steps := by
  rw [Expr.nodesAt, Expr.nodesAt, Expr.eval]
  simp only [bind_assoc]
  refine bind_congr fun answer => bind_congr fun candidates => bind_congr fun kept => ?_
  cases evalSteps nav steps kept <;> rfl

theorem Expr.nodesAt_union (left right : Expr) :
    (Expr.union left right).nodesAt nav context =
      left.nodesAt nav context >>= fun these =>
        right.nodesAt nav context >>= fun those => .ok (nav.documentOrder (these ++ those)) := by
  rw [Expr.nodesAt, Expr.nodesAt, Expr.nodesAt, Expr.eval]
  simp only [bind_assoc]
  rfl

/-- An expression followed by steps, as it is read: steps are added to those of a path or a filter, and
every other expression becomes the primary of a filter. -/
def Expr.followedBy (steps : List Step) : Expr → Expr
  | path absolute own => path absolute (own ++ steps)
  | filter primary predicates own => filter primary predicates (own ++ steps)
  | other => filter other [] steps

theorem Expr.type_followedBy (steps : List Step) (expr : Expr) :
    (expr.followedBy steps).type = .nodeSet := by
  cases expr <;> rfl

theorem Expr.nodesAt_parenthesized (steps : List Step) (expr : Expr) :
    (Expr.filter expr [] steps).nodesAt nav context =
      expr.nodesAt nav context >>= evalSteps nav steps := by
  rw [Expr.nodesAt_filter]
  refine bind_congr fun candidates => ?_
  rw [evalPredicates]
  rfl

/-- Steps after an expression lead on from its nodes. -/
theorem Expr.nodesAt_followedBy (steps : List Step) (expr : Expr) :
    (expr.followedBy steps).nodesAt nav context =
      expr.nodesAt nav context >>= evalSteps nav steps := by
  cases expr with
  | path absolute own =>
      rw [Expr.followedBy, Expr.nodesAt_path, Expr.nodesAt_path, evalSteps_append]
  | filter primary predicates own =>
      rw [Expr.followedBy, Expr.nodesAt_filter, Expr.nodesAt_filter]
      simp only [bind_assoc]
      refine bind_congr fun candidates => bind_congr fun kept => ?_
      exact evalSteps_append nav own steps kept
  | _ => exact Expr.nodesAt_parenthesized nav context steps _

/-- It makes no difference whether an expression stands in parentheses before the steps. -/
theorem Expr.eval_followedBy (steps : List Step) (expr : Expr) :
    (expr.followedBy steps).eval nav context = (Expr.filter expr [] steps).eval nav context := by
  have hType : (Expr.filter expr [] steps).type = .nodeSet := rfl
  rw [Expr.eval_eq_nodesAt nav context (expr.type_followedBy steps),
    Expr.eval_eq_nodesAt nav context hType, Expr.nodesAt_followedBy, Expr.nodesAt_parenthesized]

end NodeSets

namespace Tree

section Steps

variable {P : Type} {t : Tree} {all : List Outline} {f : Nat → P} {nav : Navigator P}
  (h : t.Depicts all) (hPlaces : t.navigator.Places nav f)
include h hPlaces

/-- What steps find from the nodes of two lists is what they find from either. -/
theorem Depicts.sameMembers_evalSteps {these those both : List P} (hThese : InOrder t f these)
    (hThose : InOrder t f those) (hBoth : InOrder t f both)
    (hMem : ∀ p, p ∈ both ↔ p ∈ these ∨ p ∈ those) (steps : List Step) :
    SameMembers (evalSteps nav steps both)
      (evalSteps nav steps these >>= fun found =>
        evalSteps nav steps those >>= fun others => .ok (found ++ others)) :=
  (h.isUnion_evalSteps hPlaces hBoth steps).sameMembers
    ((h.isUnion_evalSteps hPlaces hThese steps).append
      (h.isUnion_evalSteps hPlaces hThose steps))
    (fun p => by rw [hMem, List.mem_append]) fun _ _ => .refl _

end Steps

section Evaluation

variable {P : Type} {t : Tree} {all : List Outline} {f : Nat → P} {nav : Navigator P}
  {context : Context P} {n : Nat}
  (h : t.Depicts all) (hPlaces : t.navigator.Places nav f) (hId : n < t.size)
  (hContext : context.node = f n)
include h hPlaces hId hContext

/-- The node-set of an expression is in document order. -/
theorem Depicts.inOrder_nodesAt (expr : Expr) :
    Yields (expr.nodesAt nav context) (InOrder t f) := by
  obtain ⟨node, position, size⟩ := context
  cases hContext
  intro nodes hNodes
  exact h.inOrder_eval hPlaces hId position size expr _
    ((expr.nodesAt_eq_ok_iff nav _).1 hNodes) nodes rfl

/-- The nodes of a union are those of its operands, each once and in document order. -/
theorem Depicts.exists_nodesAt_union {left right : Expr} {these those : List P}
    (hThese : left.nodesAt nav context = .ok these)
    (hThose : right.nodesAt nav context = .ok those) :
    ∃ both, (Expr.union left right).nodesAt nav context = .ok both ∧ InOrder t f both ∧
      ∀ p, p ∈ both ↔ p ∈ these ∨ p ∈ those := by
  have hStanding := (h.inOrder_nodesAt hPlaces hId hContext left these hThese).standing.append
    (h.inOrder_nodesAt hPlaces hId hContext right those hThose).standing
  refine ⟨nav.documentOrder (these ++ those), ?_, hStanding.documentOrder hPlaces, fun p => ?_⟩
  · rw [Expr.nodesAt_union]
    exact bind_eq_ok hThese (bind_eq_ok hThose rfl)
  · rw [hStanding.mem_documentOrder_iff hPlaces, List.mem_append]

theorem Depicts.nodesAt_union_iff (left right : Expr) (nodes : List P) :
    (Expr.union left right).nodesAt nav context = .ok nodes ↔
      ∃ these those, left.nodesAt nav context = .ok these ∧
        right.nodesAt nav context = .ok those ∧ InOrder t f nodes ∧
        ∀ p, p ∈ nodes ↔ p ∈ these ∨ p ∈ those := by
  constructor
  · intro hNodes
    have hSteps := hNodes
    rw [Expr.nodesAt_union] at hSteps
    obtain ⟨these, hThese, hRest⟩ := bind_eq_ok_iff.1 hSteps
    obtain ⟨those, hThose, -⟩ := bind_eq_ok_iff.1 hRest
    obtain ⟨both, hBoth, hOrder, hMem⟩ :=
      h.exists_nodesAt_union hPlaces hId hContext hThese hThose
    cases hNodes.symm.trans hBoth
    exact ⟨these, those, hThese, hThose, hOrder, hMem⟩
  · rintro ⟨these, those, hThese, hThose, hOrder, hMem⟩
    obtain ⟨both, hBoth, hOrder', hMem'⟩ :=
      h.exists_nodesAt_union hPlaces hId hContext hThese hThose
    rw [hBoth, hOrder'.eq_of_mem_iff hPlaces hOrder fun p => by rw [hMem, hMem']]

theorem Depicts.sameResult_union_comm (left right : Expr) :
    SameResult ((Expr.union left right).nodesAt nav context)
      ((Expr.union right left).nodesAt nav context) := by
  intro nodes
  rw [h.nodesAt_union_iff hPlaces hId hContext, h.nodesAt_union_iff hPlaces hId hContext]
  constructor
  · rintro ⟨these, those, hThese, hThose, hOrder, hMem⟩
    exact ⟨those, these, hThose, hThese, hOrder, fun p => (hMem p).trans or_comm⟩
  · rintro ⟨those, these, hThose, hThese, hOrder, hMem⟩
    exact ⟨these, those, hThese, hThose, hOrder, fun p => (hMem p).trans or_comm⟩

theorem Depicts.sameResult_union_assoc (first second third : Expr) :
    SameResult ((Expr.union first (.union second third)).nodesAt nav context)
      ((Expr.union (.union first second) third).nodesAt nav context) := by
  intro nodes
  rw [h.nodesAt_union_iff hPlaces hId hContext, h.nodesAt_union_iff hPlaces hId hContext]
  constructor
  · rintro ⟨these, rest, hThese, hRest, hOrder, hMem⟩
    obtain ⟨those, others, hThose, hOthers, -, hRestMem⟩ :=
      (h.nodesAt_union_iff hPlaces hId hContext second third rest).1 hRest
    obtain ⟨start, hStart, -, hStartMem⟩ :=
      h.exists_nodesAt_union hPlaces hId hContext hThese hThose
    refine ⟨start, others, hStart, hOthers, hOrder, fun p => ?_⟩
    rw [hMem, hRestMem, hStartMem, or_assoc]
  · rintro ⟨start, others, hStart, hOthers, hOrder, hMem⟩
    obtain ⟨these, those, hThese, hThose, -, hStartMem⟩ :=
      (h.nodesAt_union_iff hPlaces hId hContext first second start).1 hStart
    obtain ⟨rest, hRest, -, hRestMem⟩ :=
      h.exists_nodesAt_union hPlaces hId hContext hThose hOthers
    refine ⟨these, rest, hThese, hRest, hOrder, fun p => ?_⟩
    rw [hMem, hStartMem, hRestMem, or_assoc]

/-- The union of an expression with itself has its nodes and no others. -/
theorem Depicts.nodesAt_union_self_iff (expr : Expr) (nodes : List P) :
    (Expr.union expr expr).nodesAt nav context = .ok nodes ↔
      expr.nodesAt nav context = .ok nodes := by
  rw [h.nodesAt_union_iff hPlaces hId hContext]
  constructor
  · rintro ⟨these, those, hThese, hThose, hOrder, hMem⟩
    cases hThese.symm.trans hThose
    have hOwn := h.inOrder_nodesAt hPlaces hId hContext expr these hThese
    rw [hThese, hOwn.eq_of_mem_iff hPlaces hOrder fun p => by rw [hMem, or_self]]
  · intro hNodes
    have hOwn := h.inOrder_nodesAt hPlaces hId hContext expr nodes hNodes
    exact ⟨nodes, nodes, hNodes, hNodes, hOwn, fun p => (or_self_iff).symm⟩

/-- Steps after a union lead to what they lead to after each of its operands. -/
theorem Depicts.sameResult_followedBy_union (left right : Expr) (steps : List Step) :
    SameResult (((Expr.union left right).followedBy steps).nodesAt nav context)
      ((Expr.union (left.followedBy steps) (right.followedBy steps)).nodesAt nav context) := by
  have hOrder := h.inOrder_nodesAt hPlaces hId hContext
  intro nodes
  rw [Expr.nodesAt_followedBy, h.nodesAt_union_iff hPlaces hId hContext]
  constructor
  · intro hNodes
    obtain ⟨both, hUnion, hSteps⟩ := bind_eq_ok_iff.1 hNodes
    obtain ⟨these, those, hThese, hThose, hBoth, hMem⟩ :=
      (h.nodesAt_union_iff hPlaces hId hContext left right both).1 hUnion
    have hSame := h.sameMembers_evalSteps hPlaces (hOrder left these hThese)
      (hOrder right those hThose) hBoth hMem steps
    obtain ⟨joined, hJoined⟩ := hSame.exists_iff.1 ⟨nodes, hSteps⟩
    obtain ⟨found, hFound, hRest⟩ := bind_eq_ok_iff.1 hJoined
    obtain ⟨others, hOthers, hEq⟩ := bind_eq_ok_iff.1 hRest
    cases hEq
    refine ⟨found, others, ?_, ?_, h.inOrder_evalSteps hPlaces hBoth steps nodes hSteps,
      fun p => ?_⟩
    · rw [Expr.nodesAt_followedBy]
      exact bind_eq_ok hThese hFound
    · rw [Expr.nodesAt_followedBy]
      exact bind_eq_ok hThose hOthers
    · rw [hSame.mem_iff nodes _ hSteps hJoined, List.mem_append]
  · rintro ⟨found, others, hFound, hOthers, hNodes, hMem⟩
    rw [Expr.nodesAt_followedBy] at hFound hOthers
    obtain ⟨these, hThese, hTheseSteps⟩ := bind_eq_ok_iff.1 hFound
    obtain ⟨those, hThose, hThoseSteps⟩ := bind_eq_ok_iff.1 hOthers
    obtain ⟨both, hUnion, hBoth, hBothMem⟩ :=
      h.exists_nodesAt_union hPlaces hId hContext hThese hThose
    have hSame := h.sameMembers_evalSteps hPlaces (hOrder left these hThese)
      (hOrder right those hThose) hBoth hBothMem steps
    have hJoined : (evalSteps nav steps these >>= fun found =>
        evalSteps nav steps those >>= fun others => .ok (found ++ others)) =
          .ok (found ++ others) :=
      bind_eq_ok hTheseSteps (bind_eq_ok hThoseSteps rfl)
    obtain ⟨all, hAll⟩ := hSame.exists_iff.2 ⟨_, hJoined⟩
    have hEq : all = nodes := by
      refine (h.inOrder_evalSteps hPlaces hBoth steps all hAll).eq_of_mem_iff hPlaces hNodes
        fun p => ?_
      rw [hSame.mem_iff all _ hAll hJoined, List.mem_append, hMem]
    rw [← hEq]
    exact bind_eq_ok hUnion hAll

end Evaluation

/-- Unions in a tree that has been built.  A union has a value if both operands have node-sets, and then
it has the nodes of either, each once and in document order.  So operands may be exchanged, regrouped
and left out if they are repeated, and steps after a union may be put after each operand instead, where
it makes no difference whether an operand stands in parentheses.  This holds for every navigator that
stands on the places of the tree, as the tree's own and cursors do. -/
theorem eval_union_of_build {value : Value} {t : Tree} (hBuild : build value = .ok t) {P : Type}
    {nav : Navigator P} {f : Nat → P} (hPlaces : t.navigator.Places nav f) {n : Nat}
    (hId : n < t.size) {context : Context P} (hContext : context.node = f n)
    (first second third : Expr) :
    ((∃ answer, (Expr.union first second).eval nav context = .ok answer) ↔
      (∃ these, first.eval nav context = .ok (.nodes these)) ∧
        ∃ those, second.eval nav context = .ok (.nodes those)) ∧
    (∀ these those, first.eval nav context = .ok (.nodes these) →
      second.eval nav context = .ok (.nodes those) →
      ∃ both, (Expr.union first second).eval nav context = .ok (.nodes both) ∧ InOrder t f both ∧
        ∀ p, p ∈ both ↔ p ∈ these ∨ p ∈ those) ∧
    SameResult ((Expr.union first second).eval nav context)
      ((Expr.union second first).eval nav context) ∧
    SameResult ((Expr.union first (.union second third)).eval nav context)
      ((Expr.union (.union first second) third).eval nav context) ∧
    (∀ answer, (Expr.union first first).eval nav context = .ok answer ↔
      first.eval nav context = .ok answer ∧ answer.type = .nodeSet) ∧
    ∀ steps : List Step,
      SameResult (((Expr.union first second).followedBy steps).eval nav context)
        ((Expr.union (first.followedBy steps) (second.followedBy steps)).eval nav context) ∧
      (first.followedBy steps).eval nav context =
        (Expr.filter first [] steps).eval nav context := by
  obtain ⟨all, -, h⟩ := exists_depicts_of_build_eq_ok hBuild
  have hNodes : ∀ (expr : Expr) nodes, expr.eval nav context = .ok (.nodes nodes) ↔
      expr.nodesAt nav context = .ok nodes := fun expr _ => (expr.nodesAt_eq_ok_iff nav context).symm
  have hUnion : ∀ left right answer, (Expr.union left right).eval nav context = .ok answer →
      ∃ nodes, answer = .nodes nodes := fun left right answer hAnswer =>
    Answer.exists_eq_nodes ((Expr.union left right).yields_type_eval nav context answer hAnswer)
  have hSelf := h.nodesAt_union_self_iff hPlaces hId hContext first
  simp only [hNodes]
  refine ⟨⟨?_, ?_⟩, ?_, ?_, ?_, fun answer => ⟨fun hAnswer => ?_, ?_⟩, fun steps => ⟨?_, ?_⟩⟩
  · rintro ⟨answer, hAnswer⟩
    obtain ⟨nodes, rfl⟩ := hUnion first second answer hAnswer
    obtain ⟨these, those, hThese, hThose, -⟩ :=
      (h.nodesAt_union_iff hPlaces hId hContext first second nodes).1 ((hNodes _ nodes).1 hAnswer)
    exact ⟨⟨these, hThese⟩, ⟨those, hThose⟩⟩
  · rintro ⟨⟨these, hThese⟩, ⟨those, hThose⟩⟩
    obtain ⟨both, hBoth, -⟩ := h.exists_nodesAt_union hPlaces hId hContext hThese hThose
    exact ⟨.nodes both, (hNodes _ both).2 hBoth⟩
  · intro these those hThese hThose
    exact h.exists_nodesAt_union hPlaces hId hContext hThese hThose
  · exact Expr.sameResult_eval nav context rfl rfl
      (h.sameResult_union_comm hPlaces hId hContext first second)
  · exact Expr.sameResult_eval nav context rfl rfl
      (h.sameResult_union_assoc hPlaces hId hContext first second third)
  · obtain ⟨nodes, rfl⟩ := hUnion first first answer hAnswer
    exact ⟨(hNodes first nodes).2 ((hSelf nodes).1 ((hNodes _ nodes).1 hAnswer)), rfl⟩
  · rintro ⟨hAnswer, hType⟩
    obtain ⟨nodes, rfl⟩ := Answer.exists_eq_nodes hType
    exact (hNodes _ nodes).2 ((hSelf nodes).2 ((hNodes first nodes).1 hAnswer))
  · exact Expr.sameResult_eval nav context (Expr.type_followedBy steps _) rfl
      (h.sameResult_followedBy_union hPlaces hId hContext first second steps)
  · exact first.eval_followedBy nav context steps

theorem eval_union_of_build_pair :
    build (.sequence [.scalar .null, .scalar (.boolean true)]) = .ok pair ∧
      pair.navigator.Places pair.navigator id ∧ 0 < pair.size ∧
      (Expr.path false [.mk .descendant .anyText []]).eval pair.navigator ⟨0, 1, 1⟩ =
        .ok (.nodes [2, 4]) ∧
      (Expr.path false [.mk .child .anyElement []]).eval pair.navigator ⟨0, 1, 1⟩ =
        .ok (.nodes [1, 3]) ∧
      (∃ both, (Expr.union (.path false [.mk .descendant .anyText []])
          (.path false [.mk .child .anyElement []])).eval pair.navigator ⟨0, 1, 1⟩ =
            .ok (.nodes both) ∧ InOrder pair id both ∧
        ∀ p, p ∈ both ↔ p ∈ [2, 4] ∨ p ∈ [1, 3]) ∧
      SameResult
        (((Expr.union (.path false [.mk .descendant .anyText []])
          (.path false [.mk .child .anyElement []])).followedBy
            [.mk .ancestor .anyNode []]).eval pair.navigator ⟨0, 1, 1⟩)
        ((Expr.union (.path false [.mk .descendant .anyText [], .mk .ancestor .anyNode []])
          (.path false [.mk .child .anyElement [], .mk .ancestor .anyNode []])).eval
            pair.navigator ⟨0, 1, 1⟩) := by
  have hTexts : (Expr.path false [.mk .descendant .anyText []]).eval pair.navigator ⟨0, 1, 1⟩ =
      .ok (.nodes [2, 4]) := by
    rfl
  have hElements : (Expr.path false [.mk .child .anyElement []]).eval pair.navigator ⟨0, 1, 1⟩ =
      .ok (.nodes [1, 3]) := by
    rfl
  have hUnion := eval_union_of_build build_pair pair.navigator.places_self (by decide)
    (show (Context.mk 0 1 1).node = id 0 from rfl) (.path false [.mk .descendant .anyText []])
    (.path false [.mk .child .anyElement []]) (.path false [])
  exact ⟨build_pair, pair.navigator.places_self, by decide, hTexts, hElements,
    hUnion.2.1 _ _ hTexts hElements, (hUnion.2.2.2.2.2 _).1⟩

end Tree

end CborPath
