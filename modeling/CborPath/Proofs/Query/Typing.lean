import CborPath.Proofs.Outcome
import CborPath.Query.Eval
import CborPath.Query.Typing

/-!
# Types of answers

An expression that has a value has one of the type that its outermost constructor tells, in every
context and for every navigator.
-/

namespace CborPath

variable {P : Type} (nav : Navigator P)

theorem NullaryFunction.type_apply (f : NullaryFunction) (context : Context P) :
    (f.apply context).type = f.type := by
  cases f <;> rfl

theorem NodeFunction.type_applyToContext (f : NodeFunction) (p : P) :
    (f.applyToContext nav p).type = f.type := by
  cases f <;> rfl

theorem BinaryFunction.type_apply (f : BinaryFunction) (s t : String) :
    (f.apply s t : Answer P).type = f.type := by
  cases f <;> rfl

theorem UnaryFunction.yields_type_apply (f : UnaryFunction) (argument : Answer P) :
    Yields (f.apply nav argument) fun answer => answer.type = f.type := by
  cases f with
  | count => exact yields_bind fun nodes => yields_ok rfl
  | sum => exact yields_bind fun nodes => yields_ok rfl
  | not => exact yields_ok rfl
  | boolean => exact yields_ok rfl
  | floor => exact yields_ok rfl
  | ceiling => exact yields_ok rfl
  | round => exact yields_ok rfl

theorem NodeFunction.yields_type_apply (f : NodeFunction) (argument : Answer P) :
    Yields (f.apply nav argument) fun answer => answer.type = f.type := by
  cases f with
  | name => exact yields_bind fun nodes => yields_ok rfl
  | localName => exact yields_bind fun nodes => yields_ok rfl
  | string => exact yields_ok rfl
  | stringLength => exact yields_ok rfl
  | normalizeSpace => exact yields_ok rfl
  | number => exact yields_ok rfl

/-- The type of an expression's value is that of the expression. -/
theorem Expr.yields_type_eval (context : Context P) (expr : Expr) :
    Yields (expr.eval nav context) fun answer => answer.type = expr.type := by
  cases expr with
  | path absolute steps =>
      rw [Expr.eval]
      exact yields_bind fun nodes => yields_ok rfl
  | filter primary predicates steps =>
      rw [Expr.eval]
      refine yields_bind fun answer => yields_bind fun candidates => ?_
      exact yields_bind fun kept => yields_bind fun nodes => yields_ok rfl
  | union left right =>
      rw [Expr.eval]
      refine yields_bind fun answer => yields_bind fun these => ?_
      exact yields_bind fun other => yields_bind fun those => yields_ok rfl
  | or left right =>
      rw [Expr.eval]
      refine yields_bind fun x => ?_
      split
      · exact yields_ok rfl
      · exact yields_bind fun y => yields_ok rfl
  | and left right =>
      rw [Expr.eval]
      refine yields_bind fun x => ?_
      split
      · exact yields_bind fun y => yields_ok rfl
      · exact yields_ok rfl
  | compare op left right =>
      rw [Expr.eval]
      exact yields_bind fun x => yields_bind fun y => yields_ok rfl
  | arithmetic op left right =>
      rw [Expr.eval]
      exact yields_bind fun x => yields_bind fun y => yields_ok rfl
  | negate operand =>
      rw [Expr.eval]
      exact yields_bind fun x => yields_ok rfl
  | number n =>
      rw [Expr.eval]
      exact yields_ok rfl
  | literal s =>
      rw [Expr.eval]
      exact yields_ok rfl
  | nullary f =>
      rw [Expr.eval]
      exact yields_ok (f.type_apply context)
  | unary f argument =>
      rw [Expr.eval]
      exact yields_bind fun x => f.yields_type_apply nav x
  | ofContext f =>
      rw [Expr.eval]
      exact yields_ok (f.type_applyToContext nav context.node)
  | ofArgument f argument =>
      rw [Expr.eval]
      exact yields_bind fun x => f.yields_type_apply nav x
  | binary f first second =>
      rw [Expr.eval]
      exact yields_bind fun x => yields_bind fun y => yields_ok (f.type_apply _ _)
  | substringFrom text start =>
      rw [Expr.eval]
      exact yields_bind fun x => yields_bind fun y => yields_ok rfl
  | substring text start length =>
      rw [Expr.eval]
      exact yields_bind fun x => yields_bind fun y => yields_bind fun z => yields_ok rfl
  | translate text source target =>
      rw [Expr.eval]
      exact yields_bind fun x => yields_bind fun y => yields_bind fun z => yields_ok rfl
  | concat first second others =>
      rw [Expr.eval]
      exact yields_bind fun x => yields_bind fun y => yields_bind fun z => yields_ok rfl

/-- Only paths, filters and unions stand for node-sets. -/
theorem Expr.cases_of_type_eq_nodeSet {expr : Expr} (h : expr.type = .nodeSet) :
    (∃ absolute steps, expr = .path absolute steps) ∨
      (∃ primary predicates steps, expr = .filter primary predicates steps) ∨
      ∃ left right, expr = .union left right := by
  cases expr with
  | path absolute steps => exact .inl ⟨absolute, steps, rfl⟩
  | filter primary predicates steps => exact .inr (.inl ⟨primary, predicates, steps, rfl⟩)
  | union left right => exact .inr (.inr ⟨left, right, rfl⟩)
  | nullary f => cases f <;> cases h
  | unary f argument => cases f <;> cases h
  | ofContext f => cases f <;> cases h
  | ofArgument f argument => cases f <;> cases h
  | binary f first second => cases f <;> cases h
  | _ => cases h

end CborPath
