import CborPath.Proofs.Query.Building

/-!
# How deeply expressions nest

On a way down from an expression to one of its parts, each minus sign, each predicate and each argument
that is entered counts one; operands, and what a filter filters, are entered for nothing.  An expression
that has been read holds no way down that counts more than the levels of nesting allow.
-/

namespace CborPath

/-- The parts of an expression that are entered for nothing. -/
def Expr.operands : Expr → List Expr
  | .filter primary _ _ => [primary]
  | .union left right | .or left right | .and left right | .compare _ left right
  | .arithmetic _ left right => [left, right]
  | _ => []

/-- The parts of an expression that count: what a minus sign stands before, predicates, and arguments. -/
def Expr.nestedParts : Expr → List Expr
  | .path _ steps => steps.flatMap Step.predicates
  | .filter _ predicates steps => predicates ++ steps.flatMap Step.predicates
  | .negate operand => [operand]
  | .unary _ argument | .ofArgument _ argument => [argument]
  | .binary _ first second | .substringFrom first second => [first, second]
  | .substring first second third | .translate first second third => [first, second, third]
  | .concat first second others => first :: second :: others
  | _ => []

/-- Whether a way down from an expression to a part of it counts so much. -/
inductive Expr.Descends : Expr → Nat → Expr → Prop
  | here (expr : Expr) : Descends expr 0 expr
  | operand {expr next part : Expr} {count : Nat} (hMem : next ∈ expr.operands)
      (hNext : Descends next count part) : Descends expr count part
  | nested {expr next part : Expr} {count : Nat} (hMem : next ∈ expr.nestedParts)
      (hNext : Descends next count part) : Descends expr (count + 1) part

/-- Whether all ways down from an expression count less than a bound. -/
def Expr.NestsBelow (bound : Nat) (expr : Expr) : Prop :=
  ∀ count part, expr.Descends count part → count < bound

section Parts

variable {expr : Expr} {levels bound : Nat}

/-- An expression nests as its parts do. -/
theorem Expr.nestsBelow_succ (hOperands : ∀ part ∈ expr.operands, part.NestsBelow (levels + 1))
    (hNested : ∀ part ∈ expr.nestedParts, part.NestsBelow levels) :
    expr.NestsBelow (levels + 1) := by
  intro count part hWay
  cases hWay with
  | here => exact Nat.succ_pos levels
  | operand hMem hNext => exact hOperands _ hMem _ _ hNext
  | nested hMem hNext => exact Nat.succ_lt_succ (hNested _ hMem _ _ hNext)

theorem Expr.NestsBelow.pos (h : expr.NestsBelow bound) :
    0 < bound :=
  h 0 expr (.here expr)

theorem Expr.NestsBelow.mono (h : expr.NestsBelow bound) (hBound : bound ≤ levels) :
    expr.NestsBelow levels :=
  fun count part hWay => Nat.lt_of_lt_of_le (h count part hWay) hBound

end Parts

theorem Parse.Operator.operands_apply (operator : Operator) (left right : Expr) :
    (operator.apply left right).operands = [left, right] ∧
      (operator.apply left right).nestedParts = [] := by
  cases operator <;> exact ⟨rfl, rfl⟩

theorem CoreFunction.parts_of_call? {function : CoreFunction} {arguments : List Expr} {call : Expr}
    (h : function.call? arguments = some call) :
    call.operands = [] ∧ call.nestedParts = arguments := by
  unfold CoreFunction.call? at h
  split at h
  case h_10 => cases h
  all_goals
    cases h
    exact ⟨rfl, rfl⟩

/-- What is built with so many levels nests less deeply than that. -/
theorem Parse.Built.nestsBelow {levels : Nat} {expr : Expr} (h : Parse.Built levels expr) :
    expr.NestsBelow levels := by
  induction h with
  | operator operator _ _ ihLeft ihRight =>
      obtain ⟨below, rfl⟩ := Nat.exists_eq_succ_of_ne_zero ihLeft.pos.ne'
      obtain ⟨hOperands, hNested⟩ := operator.operands_apply _ _
      refine Expr.nestsBelow_succ ?_ ?_
      · rw [hOperands]
        exact List.forall_mem_cons.2 ⟨ihLeft, List.forall_mem_singleton.2 ihRight⟩
      · rw [hNested]
        exact List.forall_mem_nil _
  | negate _ ih =>
      exact Expr.nestsBelow_succ (List.forall_mem_nil _) (List.forall_mem_singleton.2 ih)
  | group _ ih => exact ih.mono (Nat.le_succ _)
  | number | literal => exact Expr.nestsBelow_succ (List.forall_mem_nil _) (List.forall_mem_nil _)
  | call hCall _ ih =>
      obtain ⟨hOperands, hNested⟩ := CoreFunction.parts_of_call? hCall
      refine Expr.nestsBelow_succ ?_ ?_
      · rw [hOperands]
        exact List.forall_mem_nil _
      · rw [hNested]
        exact ih
  | path _ _ _ ih => exact Expr.nestsBelow_succ (List.forall_mem_nil _) (List.forall_mem_flatMap.2 ih)
  | filter _ _ _ _ _ ihPrimary ihPredicates ih =>
      exact Expr.nestsBelow_succ (List.forall_mem_singleton.2 ihPrimary)
        (List.forall_mem_append.2 ⟨ihPredicates, List.forall_mem_flatMap.2 ih⟩)

end CborPath
