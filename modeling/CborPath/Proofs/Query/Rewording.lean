import CborPath.Proofs.Number.Whole
import CborPath.Proofs.Query.Typing

/-!
# Numeric predicates as comparisons

A predicate that is a number asks whether the position is that number.  Writing the question out as a
comparison, wherever in an expression such a predicate stands, does not change what the expression
evaluates to.
-/

namespace CborPath

/-- Whether the position is what an expression says. -/
def Expr.atPosition (expr : Expr) : Expr :=
  .compare .equal (.nullary .position) expr

namespace Expr

mutual

/-- Whether an expression is another one in which some predicates that are numbers, wherever they
stand, have been written out as comparisons with the position. -/
inductive Rewords : Expr → Expr → Prop
  | same (expr : Expr) : Rewords expr expr
  | path (absolute : Bool) {steps steps' : List Step} :
      StepsReword steps steps' → Rewords (.path absolute steps) (.path absolute steps')
  | filter {primary primary' : Expr} {predicates predicates' : List Expr}
      {steps steps' : List Step} : Rewords primary primary' →
      PredicatesReword predicates predicates' → StepsReword steps steps' →
      Rewords (.filter primary predicates steps) (.filter primary' predicates' steps')
  | union {left left' right right' : Expr} : Rewords left left' → Rewords right right' →
      Rewords (.union left right) (.union left' right')
  | or {left left' right right' : Expr} : Rewords left left' → Rewords right right' →
      Rewords (.or left right) (.or left' right')
  | and {left left' right right' : Expr} : Rewords left left' → Rewords right right' →
      Rewords (.and left right) (.and left' right')
  | compare (op : Comparison) {left left' right right' : Expr} : Rewords left left' →
      Rewords right right' → Rewords (.compare op left right) (.compare op left' right')
  | arithmetic (op : Arithmetic) {left left' right right' : Expr} : Rewords left left' →
      Rewords right right' → Rewords (.arithmetic op left right) (.arithmetic op left' right')
  | negate {operand operand' : Expr} : Rewords operand operand' →
      Rewords (.negate operand) (.negate operand')
  | unary (f : UnaryFunction) {argument argument' : Expr} : Rewords argument argument' →
      Rewords (.unary f argument) (.unary f argument')
  | ofArgument (f : NodeFunction) {argument argument' : Expr} : Rewords argument argument' →
      Rewords (.ofArgument f argument) (.ofArgument f argument')
  | binary (f : BinaryFunction) {first first' second second' : Expr} : Rewords first first' →
      Rewords second second' → Rewords (.binary f first second) (.binary f first' second')
  | substringFrom {text text' start start' : Expr} : Rewords text text' → Rewords start start' →
      Rewords (.substringFrom text start) (.substringFrom text' start')
  | substring {text text' start start' length length' : Expr} : Rewords text text' →
      Rewords start start' → Rewords length length' →
      Rewords (.substring text start length) (.substring text' start' length')
  | translate {text text' source source' target target' : Expr} : Rewords text text' →
      Rewords source source' → Rewords target target' →
      Rewords (.translate text source target) (.translate text' source' target')
  | concat {first first' second second' : Expr} {others others' : List Expr} :
      Rewords first first' → Rewords second second' → ArgumentsReword others others' →
      Rewords (.concat first second others) (.concat first' second' others')

/-- The same for some arguments. -/
inductive ArgumentsReword : List Expr → List Expr → Prop
  | nil : ArgumentsReword [] []
  | cons {expr expr' : Expr} {rest rest' : List Expr} : Rewords expr expr' →
      ArgumentsReword rest rest' → ArgumentsReword (expr :: rest) (expr' :: rest')

/-- The same for some predicates, each of which may be written out itself if it is a number. -/
inductive PredicatesReword : List Expr → List Expr → Prop
  | nil : PredicatesReword [] []
  | cons {predicate predicate' : Expr} {rest rest' : List Expr} :
      Rewords predicate predicate' → PredicatesReword rest rest' →
      PredicatesReword (predicate :: rest) (predicate' :: rest')
  | position {predicate predicate' : Expr} {rest rest' : List Expr} :
      Rewords predicate predicate' → predicate.type = .number →
      PredicatesReword rest rest' →
      PredicatesReword (predicate :: rest) (predicate'.atPosition :: rest')

/-- The same for some steps. -/
inductive StepsReword : List Step → List Step → Prop
  | nil : StepsReword [] []
  | cons (axis : Axis) (test : NodeTest) {predicates predicates' : List Expr}
      {rest rest' : List Step} : PredicatesReword predicates predicates' →
      StepsReword rest rest' →
      StepsReword (.mk axis test predicates :: rest) (.mk axis test predicates' :: rest')

end

end Expr

section Evaluation

variable {P : Type} (nav : Navigator P)

/-- The comparison keeps the nodes that the number keeps. -/
theorem Expr.keeps_atPosition {predicate : Expr} (h : predicate.type = .number) (node : P)
    (position size : Nat) :
    (do return (← predicate.atPosition.eval nav ⟨node, position, size⟩).keeps position) =
      (do return (← predicate.eval nav ⟨node, position, size⟩).keeps position) := by
  have hType := predicate.yields_type_eval nav ⟨node, position, size⟩
  rw [Expr.atPosition, Expr.eval, Expr.eval]
  cases hEval : predicate.eval nav ⟨node, position, size⟩ with
  | error e => rfl
  | ok answer =>
      cases answer with
      | number n => exact congrArg Except.ok (Binary64.equals_comm _ n)
      | _ => exact absurd ((hType _ hEval).trans h) (by rintro ⟨⟩)

theorem Expr.Rewords.type_eq {expr other : Expr} (h : expr.Rewords other) :
    expr.type = other.type := by
  cases h <;> rfl

/-- A step selects by what its predicates keep. -/
theorem Step.select_congr {predicates others : List Expr}
    (h : ∀ nodes : List P, evalPredicates nav predicates nodes = evalPredicates nav others nodes)
    (axis : Axis) (test : NodeTest) :
    (Step.mk axis test predicates).select nav = (Step.mk axis test others).select nav := by
  funext node
  rw [Step.select, Step.select, h]

mutual

/-- An expression has the same value if numeric predicates in it are written out. -/
theorem Expr.Rewords.eval_eq {expr other : Expr} (h : expr.Rewords other) (context : Context P) :
    expr.eval nav context = other.eval nav context := by
  cases h with
  | same => rfl
  | path absolute hSteps => rw [Expr.eval, Expr.eval, hSteps.evalSteps_eq]
  | filter hPrimary hPredicates hSteps =>
      rw [Expr.eval, Expr.eval, hPrimary.eval_eq]
      simp only [hPredicates.evalPredicates_eq, hSteps.evalSteps_eq]
  | union hLeft hRight => rw [Expr.eval, Expr.eval, hLeft.eval_eq, hRight.eval_eq]
  | or hLeft hRight => rw [Expr.eval, Expr.eval, hLeft.eval_eq, hRight.eval_eq]
  | and hLeft hRight => rw [Expr.eval, Expr.eval, hLeft.eval_eq, hRight.eval_eq]
  | compare op hLeft hRight => rw [Expr.eval, Expr.eval, hLeft.eval_eq, hRight.eval_eq]
  | arithmetic op hLeft hRight => rw [Expr.eval, Expr.eval, hLeft.eval_eq, hRight.eval_eq]
  | negate hOperand => rw [Expr.eval, Expr.eval, hOperand.eval_eq]
  | unary f hArgument => rw [Expr.eval, Expr.eval, hArgument.eval_eq]
  | ofArgument f hArgument => rw [Expr.eval, Expr.eval, hArgument.eval_eq]
  | binary f hFirst hSecond => rw [Expr.eval, Expr.eval, hFirst.eval_eq, hSecond.eval_eq]
  | substringFrom hText hStart => rw [Expr.eval, Expr.eval, hText.eval_eq, hStart.eval_eq]
  | substring hText hStart hLength =>
      rw [Expr.eval, Expr.eval, hText.eval_eq, hStart.eval_eq, hLength.eval_eq]
  | translate hText hSource hTarget =>
      rw [Expr.eval, Expr.eval, hText.eval_eq, hSource.eval_eq, hTarget.eval_eq]
  | concat hFirst hSecond hOthers =>
      rw [Expr.eval, Expr.eval, hFirst.eval_eq, hSecond.eval_eq, hOthers.evalTexts_eq]

theorem Expr.ArgumentsReword.evalTexts_eq {exprs others : List Expr}
    (h : Expr.ArgumentsReword exprs others)
    (context : Context P) :
    evalTexts nav context exprs = evalTexts nav context others := by
  cases h with
  | nil => rfl
  | cons hFirst hRest => rw [evalTexts, evalTexts, hFirst.eval_eq, hRest.evalTexts_eq]

theorem Expr.PredicatesReword.evalPredicates_eq {predicates others : List Expr}
    (h : Expr.PredicatesReword predicates others) (nodes : List P) :
    evalPredicates nav predicates nodes = evalPredicates nav others nodes := by
  cases h with
  | nil => rfl
  | cons hFirst hRest =>
      rw [evalPredicates, evalPredicates]
      simp only [hFirst.eval_eq, hRest.evalPredicates_eq]
  | position hFirst hType hRest =>
      have hOther := hFirst.type_eq.symm.trans hType
      rw [evalPredicates, evalPredicates]
      simp only [Expr.keeps_atPosition nav hOther, hFirst.eval_eq, hRest.evalPredicates_eq]

theorem Expr.StepsReword.evalSteps_eq {steps others : List Step}
    (h : Expr.StepsReword steps others) (nodes : List P) :
    evalSteps nav steps nodes = evalSteps nav others nodes := by
  cases h with
  | nil => rfl
  | cons axis test hPredicates hRest =>
      rw [evalSteps, evalSteps, Step.select_congr nav hPredicates.evalPredicates_eq]
      simp only [hRest.evalSteps_eq]

end

end Evaluation

end CborPath
