import CborPath.Proofs.Query.Rendering

/-!
# The nesting limit

The text of an expression that nests more deeply than is allowed is refused for just that reason.
What comes before the first part that nests too deeply is read as usual; that part fails, and nothing
recovers from a failure.
-/

namespace CborPath

open Text (skipSpace)

section Parts

variable {exprs : List Expr} {steps : List Step} {levels : Nat}

/-- Some part of a list nests as deeply as the list says. -/
theorem exists_le_nesting (h : levels < listNesting exprs) :
    ∃ expr ∈ exprs, levels ≤ expr.nesting := by
  induction exprs with
  | nil => cases h
  | cons first others ih =>
      rw [listNesting] at h
      by_cases hFirst : levels ≤ first.nesting
      · exact ⟨first, List.mem_cons_self .., hFirst⟩
      · obtain ⟨expr, hMem, hDeep⟩ := ih (by omega)
        exact ⟨expr, List.mem_cons_of_mem _ hMem, hDeep⟩

theorem exists_le_nesting_step (h : levels < stepsNesting steps) :
    ∃ step ∈ steps, ∃ expr ∈ step.predicates, levels ≤ expr.nesting := by
  induction steps with
  | nil => cases h
  | cons first others ih =>
      rw [stepsNesting] at h
      by_cases hFirst : levels < first.nesting
      · obtain ⟨axis, test, predicates⟩ := first
        exact ⟨_, List.mem_cons_self .., exists_le_nesting hFirst⟩
      · obtain ⟨step, hMem, hDeep⟩ := ih (by omega)
        exact ⟨step, List.mem_cons_of_mem _ hMem, hDeep⟩

end Parts

namespace Parse

/-- Whether an outcome is the failure of a text that nests too deeply. -/
def FailsDeep {α : Type} (outcome : Except Fault α) : Prop :=
  ∃ place, outcome = .error ⟨.nestedTooDeeply, place⟩

section FailsDeep

variable {α β : Type} {outcome : Except Fault α} {next : α → Except Fault β}

theorem FailsDeep.bind (h : FailsDeep outcome) :
    FailsDeep (outcome >>= next) := by
  obtain ⟨place, rfl⟩ := h
  exact ⟨place, rfl⟩

theorem failsDeep_bind {x : α} (h : outcome = .ok x) (hNext : FailsDeep (next x)) :
    FailsDeep (outcome >>= next) := by
  subst h
  exact hNext

end FailsDeep

/-- Whether a text nests too deeply for a reader, wherever an expression may end after it. -/
def Overflows (reader : Reader Expr) (text : List Char) : Prop :=
  ∀ rest, GoesOn closers rest → FailsDeep (reader (text ++ rest))

variable {operand nested : Reader Expr}

/-- Whether a reader takes off the texts of some expressions but for those that nest too deeply, of
which there are some. -/
def SomeOverflow (nested : Reader Expr) (exprs : List Expr) : Prop :=
  (∀ expr ∈ exprs, Reads nested expr.written expr ∨ Overflows nested expr.written) ∧
    ∃ expr ∈ exprs, Overflows nested expr.written

/-- The same of the predicates of some steps. -/
def SomeStepOverflows (nested : Reader Expr) (steps : List Step) : Prop :=
  (∀ step ∈ steps, step.test.isWritable = true ∧
    ∀ expr ∈ step.predicates, Reads nested expr.written expr ∨ Overflows nested expr.written) ∧
    ∃ step ∈ steps, ∃ expr ∈ step.predicates, Overflows nested expr.written

section Parts

variable {first : Expr} {exprs : List Expr} {step : Step} {steps : List Step} {rest : List Char}

theorem not_someOverflow_nil :
    ¬SomeOverflow nested [] := by
  rintro ⟨-, _, hMem, -⟩
  cases hMem

theorem not_someStepOverflows_nil :
    ¬SomeStepOverflows nested [] := by
  rintro ⟨-, _, hMem, -⟩
  cases hMem

/-- Either the first of some expressions nests too deeply, or it is read and one after it does. -/
theorem SomeOverflow.first_or_later (h : SomeOverflow nested (first :: exprs)) :
    Overflows nested first.written ∨
      Reads nested first.written first ∧ SomeOverflow nested exprs := by
  obtain ⟨hEach, expr, hMem, hDeep⟩ := h
  rcases hEach first (List.mem_cons_self ..) with hReads | hFirst
  · rcases List.mem_cons.1 hMem with rfl | hOther
    · exact .inl hDeep
    · exact .inr ⟨hReads, fun other hOther => hEach other (List.mem_cons_of_mem _ hOther),
        expr, hOther, hDeep⟩
  · exact .inl hFirst

theorem SomeStepOverflows.first_or_later (h : SomeStepOverflows nested (step :: steps)) :
    step.test.isWritable = true ∧ SomeOverflow nested step.predicates ∨
      ReadsSteps nested [step] ∧ SomeStepOverflows nested steps := by
  obtain ⟨hEach, deep, hMem, hDeep⟩ := h
  obtain ⟨hTest, hOwn⟩ := hEach step (List.mem_cons_self ..)
  by_cases hFirst : ∃ expr ∈ step.predicates, Overflows nested expr.written
  · exact .inl ⟨hTest, hOwn, hFirst⟩
  · refine .inr ⟨fun other hOther => ?_, fun other hOther => hEach other
      (List.mem_cons_of_mem _ hOther), deep, ?_, hDeep⟩
    · obtain rfl := List.mem_singleton.1 hOther
      exact ⟨hTest, fun expr hExpr =>
        (hOwn expr hExpr).resolve_right fun hBad => hFirst ⟨expr, hExpr, hBad⟩⟩
    · rcases List.mem_cons.1 hMem with rfl | hOther
      · exact absurd hDeep hFirst
      · exact hOther

theorem predicatesWithin_failsDeep (h : SomeOverflow nested exprs) (bound : Nat)
    (hBound : (writtenPredicates exprs ++ rest).length < bound) :
    FailsDeep (predicatesWithin nested bound (writtenPredicates exprs ++ rest)) := by
  induction exprs generalizing bound with
  | nil => exact absurd h not_someOverflow_nil
  | cons first others ih =>
      obtain ⟨bound, rfl⟩ : ∃ less, bound = less + 1 := ⟨bound - 1, by omega⟩
      rw [writtenPredicates, List.cons_append, List.append_assoc, List.cons_append] at hBound ⊢
      have hEnd := goesOn_bracket (writtenPredicates others ++ rest)
      rcases h.first_or_later with hFirst | ⟨hReads, hLater⟩
      · exact (hFirst _ hEnd).bind
      · have hOthers := ih hLater bound
          (by simp only [List.length_cons, List.length_append] at hBound ⊢; omega)
        exact failsDeep_bind (hReads _ hEnd) (failsDeep_bind (expect_eq_ok_iff.2 rfl) hOthers.bind)

theorem predicates_failsDeep (h : SomeOverflow nested exprs) (rest : List Char) :
    FailsDeep (predicates nested (writtenPredicates exprs ++ rest)) :=
  predicatesWithin_failsDeep h _ (Nat.lt_succ_self _)

theorem step_failsDeep (hTest : step.test.isWritable = true)
    (h : SomeOverflow nested step.predicates) (rest : List Char) :
    FailsDeep (Parse.step nested (step.written ++ rest)) := by
  obtain ⟨axis, test, exprs⟩ := step
  have hEnd : GoesOn testEnds (writtenPredicates exprs ++ rest) := by
    cases exprs with
    | nil => exact absurd h not_someOverflow_nil
    | cons first others => exact goesOn_cons (by decide) _
  rw [Step.written, List.append_assoc, List.cons_append, List.cons_append, List.append_assoc,
    step_axis]
  exact failsDeep_bind (nodeTest_written hTest hEnd.endsTest) (predicates_failsDeep h rest).bind

theorem pathTailWithin_failsDeep (h : SomeStepOverflows nested steps) (hRest : GoesOn closers rest)
    (bound : Nat) (hBound : (tailText steps ++ rest).length < bound) :
    FailsDeep (pathTailWithin nested bound (tailText steps ++ rest)) := by
  induction steps generalizing bound with
  | nil => exact absurd h not_someStepOverflows_nil
  | cons first others ih =>
      obtain ⟨bound, rfl⟩ : ∃ less, bound = less + 1 := ⟨bound - 1, by omega⟩
      rw [tailText_cons, List.cons_append, List.append_assoc] at hBound ⊢
      have hSteps : FailsDeep (Parse.step nested (first.written ++ (tailText others ++ rest))) ∨
          Parse.step nested (first.written ++ (tailText others ++ rest)) =
              .ok (first, tailText others ++ rest) ∧
            FailsDeep (pathTailWithin nested bound (tailText others ++ rest)) := by
        rcases h.first_or_later with ⟨hTest, hFirst⟩ | ⟨hReads, hLater⟩
        · exact .inl (step_failsDeep hTest hFirst _)
        · refine .inr ⟨step_written hReads (goesOn_tailText others hRest), ih hLater bound ?_⟩
          simp only [List.length_cons, List.length_append] at hBound ⊢
          omega
      obtain ⟨axis, test, exprs⟩ := first
      rw [Step.written, List.append_assoc] at hSteps ⊢
      rw [pathTailWithin_axis]
      rcases hSteps with hFirst | ⟨hFirst, hLater⟩
      · exact hFirst.bind
      · exact failsDeep_bind hFirst hLater.bind

theorem relativePath_failsDeep (h : SomeStepOverflows nested (step :: steps))
    (hRest : GoesOn closers rest) :
    FailsDeep (relativePath nested (step.written ++ (tailText steps ++ rest))) := by
  rcases h.first_or_later with ⟨hTest, hFirst⟩ | ⟨hReads, hLater⟩
  · exact (step_failsDeep hTest hFirst _).bind
  · have hTail := pathTailWithin_failsDeep hLater hRest _ (Nat.lt_succ_self _)
    exact failsDeep_bind (step_written hReads (goesOn_tailText steps hRest)) hTail.bind

theorem path_overflows {absolute : Bool} (h : SomeStepOverflows nested steps) :
    Overflows (pathExpr nested) (Expr.path absolute steps).written := by
  intro rest hRest
  cases steps with
  | nil => exact absurd h not_someStepOverflows_nil
  | cons first others =>
      have hFails := relativePath_failsDeep h hRest
      rw [written_path_cons]
      obtain ⟨axis, test, exprs⟩ := first
      rw [Step.written, List.append_assoc] at hFails ⊢
      cases absolute with
      | true =>
          show FailsDeep (pathExpr nested ('/' :: (_ ++ rest)))
          rw [pathExpr_slash, List.append_assoc, List.append_assoc, locationPath_slash_axis]
          exact hFails.bind
      | false =>
          show FailsDeep (pathExpr nested (_ ++ rest))
          rw [List.append_assoc, List.append_assoc]
          exact pathExpr_axis axis _ ▸ hFails.bind

theorem pathExpr_failsDeep {text : List Char} (h : Overflows nested text) (rest : List Char) :
    FailsDeep (pathExpr nested (parenthesized text ++ rest)) := by
  have hInner := h _ (goesOn_parenthesis rest)
  rw [parenthesized, List.cons_append, List.append_assoc]
  show FailsDeep (primary nested _ >>= _)
  exact FailsDeep.bind hInner.bind

theorem filter_overflows (hFirst : Reads nested first.written first)
    (h : SomeOverflow nested exprs ∨
      (∀ expr ∈ exprs, Reads nested expr.written expr) ∧ SomeStepOverflows nested steps) :
    Overflows (pathExpr nested) (Expr.filter first exprs steps).written := by
  intro rest hRest
  rw [Expr.written, List.append_assoc, List.append_assoc]
  refine failsDeep_bind (primary_parenthesized hFirst _) ?_
  rcases h with hExprs | ⟨hEach, hSteps⟩
  · exact (predicates_failsDeep hExprs _).bind
  · have hEnd := goesOn_tailText steps hRest
    have hPredicates := predicates_written hEach hEnd
    have hTail := pathTailWithin_failsDeep hSteps hRest _ (Nat.lt_succ_self _)
    exact failsDeep_bind hPredicates hTail.bind

theorem argumentsWithin_failsDeep (h : SomeOverflow nested (first :: exprs)) (bound : Nat)
    (hBound : (furtherText exprs ++ ')' :: rest).length < bound) :
    FailsDeep (argumentsWithin nested bound
      (first.written ++ (furtherText exprs ++ ')' :: rest))) := by
  induction exprs generalizing first bound with
  | nil =>
      obtain ⟨bound, rfl⟩ : ∃ less, bound = less + 1 := ⟨bound - 1, by omega⟩
      rcases h.first_or_later with hFirst | ⟨-, -, _, hMem, -⟩
      · exact (hFirst _ (goesOn_parenthesis rest)).bind
      · cases hMem
  | cons second others ih =>
      obtain ⟨bound, rfl⟩ : ∃ less, bound = less + 1 := ⟨bound - 1, by omega⟩
      rw [furtherText_cons_append] at hBound ⊢
      have hEnd := goesOn_comma (second.written ++ (furtherText others ++ ')' :: rest))
      rcases h.first_or_later with hFirst | ⟨hReads, hLater⟩
      · exact (hFirst _ hEnd).bind
      · have hOthers := ih hLater bound
          (by simp only [List.length_cons, List.length_append] at hBound ⊢; omega)
        exact failsDeep_bind (hReads _ hEnd) hOthers.bind

theorem call_overflows {function : CoreFunction} {call : Expr}
    (hCall : function.call? exprs = some call) (hOpens : ∀ expr ∈ exprs, Opens expr.written)
    (h : SomeOverflow nested exprs) :
    Overflows (pathExpr nested) call.written := by
  intro rest _
  cases exprs with
  | nil => exact absurd h not_someOverflow_nil
  | cons first others =>
      have hArguments : FailsDeep (arguments nested
          (List.intercalate [','] (writtenArguments (first :: others)) ++ ')' :: rest)) := by
        rw [arguments_cons (hOpens first (List.mem_cons_self ..))]
        refine (argumentsWithin_failsDeep h _ ?_).bind
        simp only [List.length_append]
        omega
      rw [written_of_call?_append hCall, pathExpr_spelling]
      refine FailsDeep.bind ?_
      rw [primary_spelling]
      exact failsDeep_bind (name_spelling function _)
        (failsDeep_bind (expect_eq_ok_iff.2 rfl) hArguments.bind)

end Parts

section Operators

variable {operator? : OperatorReader} {readers looser tighter : List OperatorReader}
  {s rest next : List Char} {operator : Operator} {left right : Expr}

theorem foldr_chain_failsDeep (h : FailsDeep (operand s)) (readers : List OperatorReader) :
    FailsDeep (readers.foldr chain operand s) := by
  induction readers with
  | nil => exact h
  | cons reader others ih => exact ih.bind

/-- If the right operand nests too deeply, so does what the operator makes of both. -/
theorem chain_failsDeep (hLeft : operand s = .ok (left, rest)) (hSkip : skipSpace rest = rest)
    (hOperator : operator? rest = some (operator, next)) (hRight : FailsDeep (operand next)) :
    FailsDeep (chain operator? operand s) := by
  refine failsDeep_bind hLeft ?_
  dsimp only
  rw [chainWithin, hSkip, hOperator]
  exact hRight.bind

theorem signed_failsDeep (h : FailsDeep (pathExpr nested s)) :
    FailsDeep (signed operand nested s) := by
  rw [← pathExpr_skipSpace] at h
  rw [signed]
  split
  · rename_i more hMinus
    rw [hMinus] at h
    obtain ⟨place, hEq⟩ := h
    cases hEq
  · exact h.bind

theorem operator_overflows (operator : Operator)
    (h : Overflows nested left.written ∨
      Reads nested left.written left ∧ Overflows nested right.written) :
    Overflows (binaryLevels (signed operand nested)) (operator.apply left right).written := by
  intro rest _
  have hLevels : binaryLevels (signed operand nested) =
      operatorReaders.foldr chain (signed operand nested) := rfl
  rw [written_apply_append, hLevels]
  rcases h with hLeft | ⟨hLeft, hRight⟩
  · exact foldr_chain_failsDeep (signed_failsDeep (pathExpr_failsDeep hLeft _)) _
  · have hSecond : FailsDeep (pathExpr nested (' ' :: (parenthesized right.written ++ rest))) :=
      pathExpr_failsDeep hRight rest
    by_cases hUnion : operator = .union
    · subst hUnion
      have hFirst := pathExpr_left hLeft .union (parenthesized right.written ++ rest)
      have hUnion : FailsDeep (chain unionOperator? (pathExpr nested) _) :=
        chain_failsDeep hFirst rfl rfl hSecond
      have hSigned : FailsDeep (signed operand nested (parenthesized left.written ++
          ' ' :: Operator.union.rightText (parenthesized right.written ++ rest))) := hUnion
      exact foldr_chain_failsDeep hSigned _
    · obtain ⟨looser, reader, tighter, hReaders, hReader⟩ := operator.exists_reader hUnion
      obtain ⟨hOperator, hTighter⟩ := hReader (parenthesized right.written ++ rest)
      have hSkip := operator.skipSpace_rightText (parenthesized right.written ++ rest)
      have hFirst : signed operand nested _ = _ :=
      signed_left hLeft hUnion (parenthesized right.written ++ rest)
      rw [hReaders, List.foldr_append, List.foldr_cons]
      exact foldr_chain_failsDeep (chain_failsDeep (foldr_chain_of_refused hFirst hSkip hTighter)
        hSkip hOperator (foldr_chain_failsDeep (signed_failsDeep hSecond) _)) _

theorem negate_overflows {part : Expr} (h : Overflows operand (parenthesized part.written)) :
    Overflows (binaryLevels (signed operand nested)) (Expr.negate part).written := by
  intro rest hRest
  have hSigned : FailsDeep (signed operand nested ((Expr.negate part).written ++ rest)) := by
    rw [Expr.written, List.cons_append]
    show FailsDeep (operand (parenthesized part.written ++ rest) >>= _)
    exact (h rest hRest).bind
  exact foldr_chain_failsDeep hSigned operatorReaders

theorem overflows_binaryLevels {text : List Char} (h : Overflows (pathExpr nested) text) :
    Overflows (binaryLevels (signed operand nested)) text :=
  fun rest hRest => foldr_chain_failsDeep (signed_failsDeep (h rest hRest)) operatorReaders

end Operators

/-- An expression nests too deeply if some expression within it does, those that nest less being
read. -/
theorem overflows_written {levels : Nat}
    (hNested : ∀ part : Expr, part.isWritable = true → part.nesting < levels →
      Reads nested part.written part)
    (hDeep : ∀ part : Expr, part.isWritable = true → levels ≤ part.nesting →
      Overflows nested part.written)
    (hOperand : ∀ part : Expr, part.isWritable = true → levels ≤ part.nesting + 1 →
      Overflows operand (parenthesized part.written))
    {expr : Expr} (hForm : expr.isWritable = true) (hLevels : levels < expr.nesting) :
    Overflows (binaryLevels (signed operand nested)) expr.written := by
  have hEach : ∀ part : Expr, part.isWritable = true →
      Reads nested part.written part ∨ Overflows nested part.written := by
    intro part hPart
    rcases Nat.lt_or_ge part.nesting levels with hLess | hGreater
    · exact .inl (hNested part hPart hLess)
    · exact .inr (hDeep part hPart hGreater)
  have hList : ∀ exprs : List Expr, listWritable exprs = true → levels < listNesting exprs →
      SomeOverflow nested exprs := by
    intro exprs hExprs hLess
    obtain ⟨part, hMem, hPart⟩ := exists_le_nesting hLess
    exact ⟨fun other hOther => hEach other (listWritable_iff.1 hExprs _ hOther), part, hMem,
      hDeep part (listWritable_iff.1 hExprs _ hMem) hPart⟩
  have hSteps : ∀ steps : List Step, stepsWritable steps = true → levels < stepsNesting steps →
      SomeStepOverflows nested steps := by
    intro steps hParts hLess
    obtain ⟨step, hStep, part, hMem, hPart⟩ := exists_le_nesting_step hLess
    refine ⟨fun other hOther => ⟨(stepsWritable_iff.1 hParts _ hOther).1, fun expr hExpr =>
      hEach expr (listWritable_iff.1 (stepsWritable_iff.1 hParts _ hOther).2 _ hExpr)⟩,
      step, hStep, part, hMem, hDeep part ?_ hPart⟩
    exact listWritable_iff.1 (stepsWritable_iff.1 hParts _ hStep).2 _ hMem
  cases expr.form with
  | path absolute steps =>
      rw [Expr.isWritable_path, Bool.and_eq_true] at hForm
      rw [Expr.nesting] at hLevels
      exact overflows_binaryLevels (path_overflows (hSteps steps hForm.2 hLevels))
  | filter primary predicates steps =>
      simp only [Expr.isWritable_filter, Bool.and_eq_true] at hForm
      obtain ⟨⟨⟨-, hPrimary⟩, hPredicates⟩, hTail⟩ := hForm
      rw [Expr.nesting] at hLevels
      refine overflows_binaryLevels ?_
      rcases Nat.lt_or_ge primary.nesting levels with hLess | hGreater
      · refine filter_overflows (hNested primary hPrimary hLess) ?_
        rcases Nat.lt_or_ge levels (listNesting predicates) with hSome | hNone
        · exact .inl (hList predicates hPredicates hSome)
        · refine .inr ⟨fun part hMem => ?_, hSteps steps hTail (by omega)⟩
          exact hNested part (listWritable_iff.1 hPredicates _ hMem)
            (Nat.lt_of_lt_of_le (nesting_lt_of_mem hMem) hNone)
      · intro rest hRest
        rw [Expr.written, List.append_assoc, List.append_assoc]
        exact pathExpr_failsDeep (hDeep primary hPrimary hGreater) _
  | operator operator left right =>
      rw [operator.isWritable_apply, Bool.and_eq_true] at hForm
      rw [operator.nesting_apply] at hLevels
      rcases Nat.lt_or_ge left.nesting levels with hLess | hGreater
      · exact operator_overflows operator (.inr ⟨hNested left hForm.1 hLess,
          hDeep right hForm.2 (by omega)⟩)
      · exact operator_overflows operator (.inl (hDeep left hForm.1 hGreater))
  | negate part =>
      rw [Expr.nesting] at hLevels
      exact negate_overflows (hOperand part hForm (by omega))
  | number n => cases hLevels
  | literal s => cases hLevels
  | call function arguments hCall =>
      rw [CoreFunction.isWritable_of_call? hCall] at hForm
      rw [CoreFunction.nesting_of_call? hCall] at hLevels
      exact overflows_binaryLevels (call_overflows hCall
        (fun part hMem => opens_written (listWritable_iff.1 hForm _ hMem))
        (hList arguments hForm hLevels))

/-- Expressions that nest more deeply than is allowed are refused; in parentheses, also those that
nest just as deeply. -/
theorem overflows_written_unary (levels : Nat) :
    (∀ expr : Expr, expr.isWritable = true → levels < expr.nesting →
      Overflows (binaryLevels (unary levels)) expr.written) ∧
    ∀ expr : Expr, expr.isWritable = true → levels ≤ expr.nesting →
      Overflows (unary levels) (parenthesized expr.written) := by
  have hTooDeep : ∀ text, Overflows tooDeep text := fun text rest _ => ⟨_, rfl⟩
  have hParenthesized : ∀ (operand nested : Reader Expr) (text : List Char), Overflows nested text →
      Overflows (signed operand nested) (parenthesized text) :=
    fun operand nested text h rest _ => signed_failsDeep (pathExpr_failsDeep h rest)
  induction levels with
  | zero =>
      constructor
      · intro expr hForm hLevels
        exact overflows_written (fun _ _ hLess => absurd hLess (Nat.not_lt_zero _))
          (fun _ _ _ => hTooDeep _) (fun _ _ _ => hTooDeep _) hForm hLevels
      · exact fun expr _ _ => hParenthesized tooDeep tooDeep _ (hTooDeep _)
  | succ levels ih =>
      obtain ⟨hDeep, hOperand⟩ := ih
      constructor
      · intro expr hForm hLevels
        exact overflows_written
          (fun part hPart hLess => (reads_written_unary levels).1 part hPart
            (Nat.le_of_lt_succ hLess))
          (fun part hPart hGreater => hDeep part hPart hGreater)
          (fun part hPart hGreater => hOperand part hPart (Nat.le_of_succ_le_succ hGreater))
          hForm hLevels
      · exact fun expr hForm hLess =>
          hParenthesized (unary levels) (binaryLevels (unary levels)) _ (hDeep expr hForm hLess)

end Parse

/-- What is read can be written, and what is written for an expression is read as the expression if
it nests less deeply than the limit, and is refused for its nesting if not.  The numbers that have a
literal are those of digits with at most one point. -/
theorem parse_render :
    (∀ (text : String) (expr : Expr), parse text = .ok expr → expr.isWritable = true) ∧
    (∀ expr : Expr, expr.isWritable = true → expr.nesting < Parse.maxNesting →
      parse expr.render = .ok expr) ∧
    (∀ expr : Expr, expr.isWritable = true → Parse.maxNesting ≤ expr.nesting →
      ∃ position, parse expr.render = .error ⟨.nestedTooDeeply, position⟩) ∧
    ∀ n : Binary64, n.isWritable = true ↔
      ∃ whole fraction : List Char, whole ++ fraction ≠ [] ∧
        (whole ++ fraction).all Char.isDigit = true ∧
        Binary64.ofDecimal false whole fraction = n := by
  refine ⟨fun text expr h => isWritable_of_parse_eq_ok h, fun expr hForm hNesting => ?_,
    fun expr hForm hNesting => ?_, fun n => Binary64.isWritable_iff_exists_digits⟩
  · exact Parse.parse_eq_ok_of_reads
      ((Parse.reads_written_unary 63).1 expr hForm (Nat.le_of_lt_succ hNesting))
  · have hOverflows := (Parse.overflows_written_unary 63).1 expr hForm hNesting []
      (Parse.goesOn_nil _)
    rw [List.append_nil] at hOverflows
    have hWhole : Parse.FailsDeep (Parse.whole expr.written) := hOverflows.bind
    obtain ⟨place, hWhole⟩ := hWhole
    rw [parse, Expr.render, String.toList_ofList, hWhole]
    exact ⟨_, rfl⟩

theorem parse_render_difference :
    parse "(child::a[last()]) - (-('b'))" = .ok (.arithmetic .subtract
      (.path false [.mk .child (.named "a") [.nullary .last]]) (.negate (.literal "b"))) ∧
    (Expr.arithmetic .subtract (.path false [.mk .child (.named "a") [.nullary .last]])
      (.negate (.literal "b"))).isWritable = true ∧
    (∃ position, parse (Nat.repeat Expr.negate 32 (.path true [])).render =
      .error ⟨.nestedTooDeeply, position⟩) ∧
    (Binary64.finite false ⟨0, by decide⟩).isWritable = true := by
  have hRender : (Expr.arithmetic .subtract
      (.path false [.mk .child (.named "a") [.nullary .last]]) (.negate (.literal "b"))).render =
        "(child::a[last()]) - (-('b'))" := by
    decide +kernel
  have hParse := parse_render.2.1 (.arithmetic .subtract
    (.path false [.mk .child (.named "a") [.nullary .last]]) (.negate (.literal "b")))
    (by decide) (by decide)
  rw [hRender] at hParse
  exact ⟨hParse, parse_render.1 _ _ hParse, parse_render.2.2.1 _ (by decide) (by decide),
    (parse_render.2.2.2 _).2 ⟨['0'], [], nofun, rfl, by decide +kernel⟩⟩

end CborPath
