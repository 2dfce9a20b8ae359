import CborPath.Proofs.Query.Typing
import CborPath.Proofs.Tree.Construction

/-!
# Failures of evaluation

Evaluation fails for one reason only: somewhere in the expression, in a place where a node-set is
needed, stands an expression of another type.  The failure names that type.  An expression that is
well typed has no such place, so it has a value in every context; whether it selects nodes then shows
in its type alone.
-/

namespace CborPath

/-- Whether a failure names the type of an expression that stands, within one of the given parts, in
place of a node-set. -/
def EvalError.IsFaultOf (e : EvalError) (parts : List Expr) : Prop :=
  ∃ part ∈ parts, ∃ operand ∈ part.nodeSetOperands,
    operand.type ≠ .nodeSet ∧ e.found = operand.type

/-- What is said of a type that was found in place of a node-set. -/
def AnswerType.complaint? : AnswerType → Option String
  | nodeSet => none
  | boolean => some "expected node-set, got boolean"
  | number => some "expected node-set, got number"
  | text => some "expected node-set, got string"

theorem EvalError.complaint?_found {e : EvalError} (h : e.found ≠ .nodeSet) :
    e.found.complaint? = some e.message := by
  obtain ⟨found⟩ := e
  cases found with
  | nodeSet => exact absurd rfl h
  | boolean => rfl
  | number => rfl
  | text => rfl

section Lists

variable {ε α β : Type} {p : ε → Prop}

theorem failsWith_keepNumbered {test : Nat → α → Except ε Bool} {xs : List α}
    (h : ∀ number, ∀ x ∈ xs, FailsWith (test number x) p) (number : Nat) :
    FailsWith (keepNumbered test number xs) p := by
  induction xs generalizing number with
  | nil => exact failsWith_ok _
  | cons x xs ih =>
      rw [keepNumbered]
      refine (h number x List.mem_cons_self).bind fun keep _ => ?_
      refine (ih (fun number y hMem => h number y (List.mem_cons_of_mem x hMem)) _).bind ?_
      exact fun others _ => failsWith_ok _

theorem failsWith_joinMap {f : α → Except ε (List β)} {xs : List α}
    (h : ∀ x ∈ xs, FailsWith (f x) p) :
    FailsWith (joinMap f xs) p := by
  induction xs with
  | nil => exact failsWith_ok _
  | cons x xs ih =>
      rw [joinMap]
      refine (h x List.mem_cons_self).bind fun first _ => ?_
      refine (ih fun y hMem => h y (List.mem_cons_of_mem x hMem)).bind ?_
      exact fun others _ => failsWith_ok _

end Lists

section Operands

variable {P : Type} (nav : Navigator P)

/-- An answer is not taken for a node-set only if it is of another type, which the failure names. -/
theorem failsWith_nodes? (answer : Answer P) :
    FailsWith answer.nodes? fun e => answer.type ≠ .nodeSet ∧ e.found = answer.type := by
  cases answer with
  | nodes positions => exact failsWith_ok _
  | boolean b => rintro _ ⟨⟩; exact ⟨nofun, rfl⟩
  | number n => rintro _ ⟨⟩; exact ⟨nofun, rfl⟩
  | text s => rintro _ ⟨⟩; exact ⟨nofun, rfl⟩

/-- A function of one argument fails only over an argument that is no node-set. -/
theorem UnaryFunction.failsWith_apply (f : UnaryFunction) (argument : Answer P) :
    FailsWith (f.apply nav argument) fun e =>
      f.needsNodes = true ∧ argument.type ≠ .nodeSet ∧ e.found = argument.type := by
  have hNodes := failsWith_nodes? argument
  cases f with
  | count => exact (hNodes.mono fun e h => ⟨rfl, h⟩).bind fun nodes _ => failsWith_ok _
  | sum => exact (hNodes.mono fun e h => ⟨rfl, h⟩).bind fun nodes _ => failsWith_ok _
  | not => exact failsWith_ok _
  | boolean => exact failsWith_ok _
  | floor => exact failsWith_ok _
  | ceiling => exact failsWith_ok _
  | round => exact failsWith_ok _

/-- A function of one argument that may be left out fails only over an argument that is no
node-set. -/
theorem NodeFunction.failsWith_apply (f : NodeFunction) (argument : Answer P) :
    FailsWith (f.apply nav argument) fun e =>
      f.needsNodes = true ∧ argument.type ≠ .nodeSet ∧ e.found = argument.type := by
  have hNodes := failsWith_nodes? argument
  cases f with
  | name => exact (hNodes.mono fun e h => ⟨rfl, h⟩).bind fun nodes _ => failsWith_ok _
  | localName => exact (hNodes.mono fun e h => ⟨rfl, h⟩).bind fun nodes _ => failsWith_ok _
  | string => exact failsWith_ok _
  | stringLength => exact failsWith_ok _
  | normalizeSpace => exact failsWith_ok _
  | number => exact failsWith_ok _

/-- An operand that has a value, but no node-set, is at fault where a node-set is needed. -/
theorem Expr.isFaultOf_of_eval {operand part : Expr} {parts : List Expr} {context : Context P}
    {answer : Answer P} {e : EvalError} (hEval : operand.eval nav context = .ok answer)
    (hPart : part ∈ parts) (hOperand : operand ∈ part.nodeSetOperands)
    (hFault : answer.type ≠ .nodeSet ∧ e.found = answer.type) :
    e.IsFaultOf parts := by
  rw [operand.yields_type_eval nav context answer hEval] at hFault
  exact ⟨part, hPart, operand, hOperand, hFault⟩

theorem Expr.failsWith_nodes?_of_eval {operand part : Expr} {parts : List Expr}
    {context : Context P} {answer : Answer P} (hEval : operand.eval nav context = .ok answer)
    (hPart : part ∈ parts) (hOperand : operand ∈ part.nodeSetOperands) :
    FailsWith answer.nodes? fun e => e.IsFaultOf parts :=
  (failsWith_nodes? answer).mono fun _ => operand.isFaultOf_of_eval nav hEval hPart hOperand

end Operands

section Evaluation

variable {P : Type} (nav : Navigator P) {parts : List Expr}

mutual

/-- Evaluation fails only over an expression that stands in place of a node-set. -/
theorem Expr.failsWith_eval (expr : Expr) (context : Context P)
    (hParts : expr.subexpressions ⊆ parts) :
    FailsWith (expr.eval nav context) fun e => e.IsFaultOf parts := by
  cases expr with
  | path absolute steps =>
      simp only [Expr.subexpressions, List.cons_subset] at hParts
      rw [Expr.eval]
      exact (failsWith_evalSteps steps _ hParts.2).bind fun nodes _ => failsWith_ok _
  | filter primary predicates steps =>
      simp only [Expr.subexpressions, List.cons_subset, List.append_subset] at hParts
      obtain ⟨hOwn, ⟨hPrimary, hPredicates⟩, hSteps⟩ := hParts
      rw [Expr.eval]
      refine (primary.failsWith_eval context hPrimary).bind fun answer hAnswer => ?_
      refine (primary.failsWith_nodes?_of_eval nav hAnswer hOwn List.mem_cons_self).bind ?_
      intro candidates _
      refine (failsWith_evalPredicates predicates candidates hPredicates).bind fun kept _ => ?_
      exact (failsWith_evalSteps steps kept hSteps).bind fun nodes _ => failsWith_ok _
  | union left right =>
      simp only [Expr.subexpressions, List.cons_subset, List.append_subset] at hParts
      obtain ⟨hOwn, hLeft, hRight⟩ := hParts
      rw [Expr.eval]
      refine (left.failsWith_eval context hLeft).bind fun answer hAnswer => ?_
      refine (left.failsWith_nodes?_of_eval nav hAnswer hOwn List.mem_cons_self).bind ?_
      intro these _
      refine (right.failsWith_eval context hRight).bind fun other hOther => ?_
      refine (right.failsWith_nodes?_of_eval nav hOther hOwn ?_).bind fun those _ => failsWith_ok _
      exact List.mem_cons_of_mem _ List.mem_cons_self
  | or left right =>
      simp only [Expr.subexpressions, List.cons_subset, List.append_subset] at hParts
      obtain ⟨-, hLeft, hRight⟩ := hParts
      rw [Expr.eval]
      refine (left.failsWith_eval context hLeft).bind fun x _ => ?_
      split
      · exact failsWith_ok _
      · exact (right.failsWith_eval context hRight).bind fun y _ => failsWith_ok _
  | and left right =>
      simp only [Expr.subexpressions, List.cons_subset, List.append_subset] at hParts
      obtain ⟨-, hLeft, hRight⟩ := hParts
      rw [Expr.eval]
      refine (left.failsWith_eval context hLeft).bind fun x _ => ?_
      split
      · exact (right.failsWith_eval context hRight).bind fun y _ => failsWith_ok _
      · exact failsWith_ok _
  | compare op left right =>
      simp only [Expr.subexpressions, List.cons_subset, List.append_subset] at hParts
      obtain ⟨-, hLeft, hRight⟩ := hParts
      rw [Expr.eval]
      refine (left.failsWith_eval context hLeft).bind fun x _ => ?_
      exact (right.failsWith_eval context hRight).bind fun y _ => failsWith_ok _
  | arithmetic op left right =>
      simp only [Expr.subexpressions, List.cons_subset, List.append_subset] at hParts
      obtain ⟨-, hLeft, hRight⟩ := hParts
      rw [Expr.eval]
      refine (left.failsWith_eval context hLeft).bind fun x _ => ?_
      exact (right.failsWith_eval context hRight).bind fun y _ => failsWith_ok _
  | negate operand =>
      simp only [Expr.subexpressions, List.cons_subset] at hParts
      rw [Expr.eval]
      exact (operand.failsWith_eval context hParts.2).bind fun x _ => failsWith_ok _
  | number n =>
      rw [Expr.eval]
      exact failsWith_ok _
  | literal s =>
      rw [Expr.eval]
      exact failsWith_ok _
  | nullary f =>
      rw [Expr.eval]
      exact failsWith_ok _
  | unary f argument =>
      simp only [Expr.subexpressions, List.cons_subset] at hParts
      rw [Expr.eval]
      refine (argument.failsWith_eval context hParts.2).bind fun x hArgument => ?_
      refine (f.failsWith_apply nav x).mono fun e hFault => ?_
      refine argument.isFaultOf_of_eval nav hArgument hParts.1 ?_ hFault.2
      simp [Expr.nodeSetOperands, hFault.1]
  | ofContext f =>
      rw [Expr.eval]
      exact failsWith_ok _
  | ofArgument f argument =>
      simp only [Expr.subexpressions, List.cons_subset] at hParts
      rw [Expr.eval]
      refine (argument.failsWith_eval context hParts.2).bind fun x hArgument => ?_
      refine (f.failsWith_apply nav x).mono fun e hFault => ?_
      refine argument.isFaultOf_of_eval nav hArgument hParts.1 ?_ hFault.2
      simp [Expr.nodeSetOperands, hFault.1]
  | binary f first second =>
      simp only [Expr.subexpressions, List.cons_subset, List.append_subset] at hParts
      obtain ⟨-, hFirst, hSecond⟩ := hParts
      rw [Expr.eval]
      refine (first.failsWith_eval context hFirst).bind fun x _ => ?_
      exact (second.failsWith_eval context hSecond).bind fun y _ => failsWith_ok _
  | substringFrom text start =>
      simp only [Expr.subexpressions, List.cons_subset, List.append_subset] at hParts
      obtain ⟨-, hText, hStart⟩ := hParts
      rw [Expr.eval]
      refine (text.failsWith_eval context hText).bind fun x _ => ?_
      exact (start.failsWith_eval context hStart).bind fun y _ => failsWith_ok _
  | substring text start length =>
      simp only [Expr.subexpressions, List.cons_subset, List.append_subset] at hParts
      obtain ⟨-, ⟨hText, hStart⟩, hLength⟩ := hParts
      rw [Expr.eval]
      refine (text.failsWith_eval context hText).bind fun x _ => ?_
      refine (start.failsWith_eval context hStart).bind fun y _ => ?_
      exact (length.failsWith_eval context hLength).bind fun z _ => failsWith_ok _
  | translate text source target =>
      simp only [Expr.subexpressions, List.cons_subset, List.append_subset] at hParts
      obtain ⟨-, ⟨hText, hSource⟩, hTarget⟩ := hParts
      rw [Expr.eval]
      refine (text.failsWith_eval context hText).bind fun x _ => ?_
      refine (source.failsWith_eval context hSource).bind fun y _ => ?_
      exact (target.failsWith_eval context hTarget).bind fun z _ => failsWith_ok _
  | concat first second others =>
      simp only [Expr.subexpressions, List.cons_subset, List.append_subset] at hParts
      obtain ⟨-, ⟨hFirst, hSecond⟩, hOthers⟩ := hParts
      rw [Expr.eval]
      refine (first.failsWith_eval context hFirst).bind fun x _ => ?_
      refine (second.failsWith_eval context hSecond).bind fun y _ => ?_
      exact (failsWith_evalTexts others context hOthers).bind fun z _ => failsWith_ok _

theorem failsWith_evalTexts (exprs : List Expr) (context : Context P)
    (hParts : listSubexpressions exprs ⊆ parts) :
    FailsWith (evalTexts nav context exprs) fun e => e.IsFaultOf parts := by
  cases exprs with
  | nil =>
      rw [evalTexts]
      exact failsWith_ok _
  | cons expr rest =>
      simp only [listSubexpressions, List.append_subset] at hParts
      rw [evalTexts]
      refine (expr.failsWith_eval context hParts.1).bind fun x _ => ?_
      exact (failsWith_evalTexts rest context hParts.2).bind fun y _ => failsWith_ok _

theorem failsWith_evalPredicates (predicates : List Expr) (nodes : List P)
    (hParts : listSubexpressions predicates ⊆ parts) :
    FailsWith (evalPredicates nav predicates nodes) fun e => e.IsFaultOf parts := by
  cases predicates with
  | nil =>
      rw [evalPredicates]
      exact failsWith_ok _
  | cons predicate rest =>
      simp only [listSubexpressions, List.append_subset] at hParts
      rw [evalPredicates]
      refine (failsWith_keepNumbered (fun position node _ => ?_) 1).bind fun kept _ => ?_
      · exact (predicate.failsWith_eval _ hParts.1).bind fun answer _ => failsWith_ok _
      · exact failsWith_evalPredicates rest kept hParts.2

theorem Step.failsWith_select (step : Step) (node : P) (hParts : step.subexpressions ⊆ parts) :
    FailsWith (step.select nav node) fun e => e.IsFaultOf parts := by
  cases step with
  | mk axis test predicates =>
      rw [Step.subexpressions] at hParts
      rw [Step.select]
      exact (failsWith_evalPredicates predicates _ hParts).bind fun selected _ => failsWith_ok _

theorem failsWith_evalSteps (steps : List Step) (nodes : List P)
    (hParts : stepsSubexpressions steps ⊆ parts) :
    FailsWith (evalSteps nav steps nodes) fun e => e.IsFaultOf parts := by
  cases steps with
  | nil =>
      rw [evalSteps]
      exact failsWith_ok _
  | cons step rest =>
      simp only [stepsSubexpressions, List.append_subset] at hParts
      rw [evalSteps]
      refine (failsWith_joinMap fun node _ => step.failsWith_select node hParts.1).bind ?_
      exact fun found _ => failsWith_evalSteps rest _ hParts.2

end

end Evaluation

section WellTyped

variable {P : Type} (nav : Navigator P) {expr : Expr}

theorem Expr.isWellTyped_iff :
    expr.isWellTyped = true ↔
      ∀ part ∈ expr.subexpressions, ∀ operand ∈ part.nodeSetOperands, operand.type = .nodeSet := by
  simp [isWellTyped]

/-- An expression that is well typed has a value everywhere. -/
theorem Expr.exists_eval_eq_ok (h : expr.isWellTyped = true) (context : Context P) :
    ∃ answer, expr.eval nav context = .ok answer := by
  cases hEval : expr.eval nav context with
  | ok answer => exact ⟨answer, rfl⟩
  | error e =>
      obtain ⟨part, hPart, operand, hOperand, hType, -⟩ :=
        expr.failsWith_eval nav context (List.Subset.refl _) e hEval
      exact absurd (isWellTyped_iff.1 h part hPart operand hOperand) hType

/-- An expression that is well typed selects nodes if it has the type of node-sets, and otherwise
fails with its own type. -/
theorem Expr.select_eq_error_iff (h : expr.isWellTyped = true) (node : P) (e : EvalError) :
    expr.select nav node = .error e ↔ expr.type ≠ .nodeSet ∧ e.found = expr.type := by
  obtain ⟨answer, hEval⟩ := expr.exists_eval_eq_ok nav h ⟨node, 1, 1⟩
  have hType := expr.yields_type_eval nav _ answer hEval
  have hSelect : expr.select nav node = answer.nodes? := by
    rw [select, evaluate, hEval]
    rfl
  rw [hSelect, ← hType]
  constructor
  · exact failsWith_nodes? answer e
  · rintro ⟨hOther, hFound⟩
    cases answer with
    | nodes positions => exact absurd rfl hOther
    | boolean b => exact congrArg Except.error (congrArg EvalError.mk hFound.symm)
    | number n => exact congrArg Except.error (congrArg EvalError.mk hFound.symm)
    | text s => exact congrArg Except.error (congrArg EvalError.mk hFound.symm)

end WellTyped

/-- Static types are sound, for every navigator.  A value has the type of its expression; an
expression that is well typed has a value in every context, and selects nodes unless its type is
another than that of node-sets; and a failure names the type of an expression that stands somewhere
in place of a node-set. -/
theorem Expr.eval_typed {P : Type} (nav : Navigator P) (expr : Expr) :
    (∀ context answer, expr.eval nav context = .ok answer → answer.type = expr.type) ∧
    (expr.isWellTyped = true →
      (∀ context, ∃ answer, expr.eval nav context = .ok answer) ∧
      ∀ node, (∃ e, expr.select nav node = .error e) ↔ expr.type ≠ .nodeSet) ∧
    ∀ context e, expr.eval nav context = .error e →
      ∃ part ∈ expr.subexpressions, ∃ operand ∈ part.nodeSetOperands, operand.type ≠ .nodeSet ∧
        operand.type.complaint? = some e.message := by
  refine ⟨fun context => expr.yields_type_eval nav context, fun h => ⟨?_, fun node => ?_⟩, ?_⟩
  · exact expr.exists_eval_eq_ok nav h
  · constructor
    · rintro ⟨e, hSelect⟩
      exact ((expr.select_eq_error_iff nav h node e).1 hSelect).1
    · intro hType
      exact ⟨⟨expr.type⟩, (expr.select_eq_error_iff nav h node ⟨expr.type⟩).2 ⟨hType, rfl⟩⟩
  · intro context e hEval
    obtain ⟨part, hPart, operand, hOperand, hType, hFound⟩ :=
      expr.failsWith_eval nav context (List.Subset.refl _) e hEval
    rw [← hFound] at hType
    refine ⟨part, hPart, operand, hOperand, ?_⟩
    rw [← hFound]
    exact ⟨hType, e.complaint?_found hType⟩

/-- The predicate is at fault where there are candidates, and is not looked at where there are
none. -/
theorem Expr.eval_typed_pair :
    (unary .count (path false [.mk .child .anyElement []])).isWellTyped = true ∧
    (∃ e, (unary .count (path false [.mk .child .anyElement []])).select Tree.pair.navigator 0 =
      .error e) ∧
    (path false [.mk .child .anyElement [unary .count (literal "a")]]).eval Tree.pair.navigator
      ⟨2, 1, 1⟩ = .ok (.nodes []) ∧
    (path false [.mk .child .anyElement [unary .count (literal "a")]]).eval Tree.pair.navigator
      ⟨0, 1, 1⟩ = .error ⟨.text⟩ ∧
    ∃ part ∈ (path false [.mk .child .anyElement [unary .count (literal "a")]]).subexpressions,
      ∃ operand ∈ part.nodeSetOperands, operand.type ≠ .nodeSet ∧
        operand.type.complaint? = some (⟨.text⟩ : EvalError).message := by
  have hTyped : (unary .count (path false [.mk .child .anyElement []])).isWellTyped = true := by
    decide
  have hFails : (path false [.mk .child .anyElement [unary .count (literal "a")]]).eval
      Tree.pair.navigator ⟨0, 1, 1⟩ = .error ⟨.text⟩ := by
    rfl
  exact ⟨hTyped, (((eval_typed Tree.pair.navigator _).2.1 hTyped).2 0).2 nofun, rfl, hFails,
    (eval_typed Tree.pair.navigator _).2.2 _ _ hFails⟩

end CborPath
