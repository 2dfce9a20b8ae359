import CborPath.Proofs.Query.Building

/-!
# What is read can be written

Whatever the readers make of a text is an expression that has a text of its own: the names in node
tests are names, the numbers are those of digits, a text literal lacks the quote that it stood in, and
neither a path nor a filter is empty.  It is enough that the rules by which they build expressions lead
to no others.
-/

namespace CborPath

section Parts

/-- Whether steps have texts. -/
def stepsWritable (steps : List Step) : Bool :=
  (steps.all fun step => step.test.isWritable) && (stepsSubexpressions steps).all Expr.hasForm

/-- Whether some expressions have texts. -/
def listWritable (exprs : List Expr) : Bool :=
  (listSubexpressions exprs).all Expr.hasForm

variable {expr : Expr} {exprs predicates : List Expr} {step : Step} {steps : List Step}

@[simp] theorem listWritable_cons :
    listWritable (expr :: exprs) = (expr.isWritable && listWritable exprs) := by
  rw [listWritable, listSubexpressions, List.all_append]
  rfl

@[simp] theorem stepsWritable_cons :
    stepsWritable (step :: steps) =
      (step.test.isWritable && listWritable step.predicates && stepsWritable steps) := by
  cases step with
  | mk axis test predicates =>
      simp only [stepsWritable, listWritable, stepsSubexpressions, Step.subexpressions, Step.predicates,
        Step.test, List.all_cons, List.all_append]
      ac_rfl

theorem listWritable_iff :
    listWritable exprs = true ↔ ∀ expr ∈ exprs, expr.isWritable = true := by
  induction exprs with
  | nil => exact iff_of_true rfl (List.forall_mem_nil _)
  | cons first others ih => rw [listWritable_cons, Bool.and_eq_true, ih, List.forall_mem_cons]

theorem stepsWritable_iff :
    stepsWritable steps = true ↔
      ∀ step ∈ steps, step.test.isWritable = true ∧ listWritable step.predicates = true := by
  induction steps with
  | nil => exact iff_of_true rfl (List.forall_mem_nil _)
  | cons first others ih =>
      rw [stepsWritable_cons, Bool.and_eq_true, Bool.and_eq_true, ih, List.forall_mem_cons]

theorem stepsWritable_of_forall (hTests : ∀ step ∈ steps, step.test.isWritable = true)
    (hSteps : ∀ step ∈ steps, ∀ predicate ∈ step.predicates, predicate.isWritable = true) :
    stepsWritable steps = true :=
  stepsWritable_iff.2 fun step hMem => ⟨hTests step hMem, listWritable_iff.2 (hSteps step hMem)⟩

@[simp] theorem Expr.isWritable_path {absolute : Bool} :
    (Expr.path absolute steps).isWritable =
      ((absolute || !steps.isEmpty) && stepsWritable steps) := by
  simp only [Expr.isWritable, Expr.subexpressions, List.all_cons, Expr.hasForm, stepsWritable,
    Bool.and_assoc]

@[simp] theorem Expr.isWritable_filter :
    (Expr.filter expr predicates steps).isWritable =
      ((!predicates.isEmpty || !steps.isEmpty) && expr.isWritable && listWritable predicates &&
        stepsWritable steps) := by
  simp only [Expr.isWritable, Expr.subexpressions, List.all_cons, List.all_append, Expr.hasForm,
    stepsWritable, listWritable]
  ac_rfl

end Parts

section Operands

variable {left right : Expr}

@[simp] theorem Expr.isWritable_number {n : Binary64} :
    (Expr.number n).isWritable = n.isWritable :=
  Bool.and_true _

@[simp] theorem Expr.isWritable_literal {s : String} :
    (Expr.literal s).isWritable = isQuotable s :=
  Bool.and_true _

/-- What an operator makes of its operands has a text if they have. -/
@[simp] theorem Parse.Operator.isWritable_apply (operator : Operator) :
    (operator.apply left right).isWritable = (left.isWritable && right.isWritable) := by
  cases operator <;> exact List.all_append

/-- A call has a text if its arguments have. -/
theorem CoreFunction.isWritable_of_call? {function : CoreFunction} {arguments : List Expr}
    {call : Expr} (h : function.call? arguments = some call) :
    call.isWritable = listWritable arguments := by
  unfold CoreFunction.call? at h
  split at h
  case h_10 => cases h
  all_goals
    cases h
    simp only [Expr.isWritable, listWritable, Expr.subexpressions, listSubexpressions, List.all_cons,
      List.all_append, List.append_nil, List.all_nil, Expr.hasForm, Bool.true_and, Bool.and_true,
      Bool.and_assoc]

end Operands

/-- What is built by the rules of reading has a text. -/
theorem Parse.Built.isWritable {levels : Nat} {expr : Expr} (h : Parse.Built levels expr) :
    expr.isWritable = true := by
  induction h with
  | operator operator _ _ ihLeft ihRight =>
      rw [operator.isWritable_apply, ihLeft, ihRight, Bool.and_self]
  | negate _ ih => exact ih
  | group _ ih => exact ih
  | number h => rw [Expr.isWritable_number, h]
  | literal h => rw [Expr.isWritable_literal, h]
  | call hCall _ ih => rw [CoreFunction.isWritable_of_call? hCall, listWritable_iff.2 ih]
  | path hSome hTests _ ih =>
      simpa [stepsWritable_of_forall hTests ih] using hSome
  | filter _ hSome _ hTests _ ihPrimary ihPredicates ih =>
      simpa [stepsWritable_of_forall hTests ih, ihPrimary, listWritable_iff.2 ihPredicates] using hSome

/-- Whatever a text is read as can be written. -/
theorem isWritable_of_parse_eq_ok {text : String} {expr : Expr} (h : parse text = .ok expr) :
    expr.isWritable = true :=
  (built_of_parse_eq_ok h).isWritable

end CborPath
