import CborPath.Proofs.Query.Reading
import CborPath.Proofs.Query.Writable

/-!
# Renderings read back

An expression that has a text is read back from the text that is written for it, as long as that text
does not nest too deeply.  The parentheses around operands make the precedence of operators immaterial:
a reader of one precedence finds its own operator directly after a closing parenthesis, and refuses
those of the others.
-/

namespace CborPath

open Text (skipSpace)

mutual

/-- How deeply the text of an expression nests: parentheses and brackets around an expression, the
arguments of a call, and a minus sign are a level each. -/
def Expr.nesting : Expr → Nat
  | .path _ steps => stepsNesting steps
  | .filter primary predicates steps =>
      max (primary.nesting + 1) (max (listNesting predicates) (stepsNesting steps))
  | .union left right | .or left right | .and left right | .compare _ left right
  | .arithmetic _ left right => max (left.nesting + 1) (right.nesting + 1)
  | .negate operand => operand.nesting + 2
  | .number _ | .literal _ | .nullary _ | .ofContext _ => 0
  | .unary _ argument | .ofArgument _ argument => argument.nesting + 1
  | .binary _ first second | .substringFrom first second =>
      max (first.nesting + 1) (second.nesting + 1)
  | .substring first second third | .translate first second third =>
      max (first.nesting + 1) (max (second.nesting + 1) (third.nesting + 1))
  | .concat first second others =>
      max (first.nesting + 1) (max (second.nesting + 1) (listNesting others))

/-- How deeply predicates or arguments nest. -/
def listNesting : List Expr → Nat
  | [] => 0
  | expr :: rest => max (expr.nesting + 1) (listNesting rest)

/-- How deeply the predicates of a step nest. -/
def Step.nesting : Step → Nat
  | .mk _ _ predicates => listNesting predicates

/-- How deeply the predicates of some steps nest. -/
def stepsNesting : List Step → Nat
  | [] => 0
  | step :: rest => max step.nesting (stepsNesting rest)

end

section Parts

variable {expr : Expr} {exprs : List Expr} {step : Step} {steps : List Step}

theorem nesting_lt_of_mem (hMem : expr ∈ exprs) :
    expr.nesting < listNesting exprs := by
  induction exprs with
  | nil => cases hMem
  | cons first others ih =>
      rw [listNesting]
      rcases List.mem_cons.1 hMem with rfl | hOther
      · omega
      · have := ih hOther
        omega

theorem nesting_lt_of_mem_step (hStep : step ∈ steps) (hMem : expr ∈ step.predicates) :
    expr.nesting < stepsNesting steps := by
  induction steps with
  | nil => cases hStep
  | cons first others ih =>
      rw [stepsNesting]
      rcases List.mem_cons.1 hStep with rfl | hOther
      · obtain ⟨axis, test, predicates⟩ := step
        have hOwn : expr.nesting < listNesting predicates := nesting_lt_of_mem hMem
        rw [Step.nesting]
        omega
      · have := ih hOther
        omega

end Parts

/-- The forms of expressions: all operators between two operands have one form, and all calls. -/
inductive Expr.Form : Expr → Prop
  | path (absolute : Bool) (steps : List Step) : Form (.path absolute steps)
  | filter (primary : Expr) (predicates : List Expr) (steps : List Step) :
      Form (.filter primary predicates steps)
  | operator (operator : Parse.Operator) (left right : Expr) : Form (operator.apply left right)
  | negate (operand : Expr) : Form (.negate operand)
  | number (n : Binary64) : Form (.number n)
  | literal (s : String) : Form (.literal s)
  | call (function : CoreFunction) (arguments : List Expr) {call : Expr} :
      function.call? arguments = some call → Form call

theorem Expr.form (expr : Expr) :
    expr.Form := by
  cases expr with
  | path absolute steps => exact .path absolute steps
  | filter primary predicates steps => exact .filter primary predicates steps
  | union left right => exact .operator .union left right
  | or left right => exact .operator .or left right
  | and left right => exact .operator .and left right
  | compare op left right => exact .operator (.compare op) left right
  | arithmetic op left right => exact .operator (.arithmetic op) left right
  | negate operand => exact .negate operand
  | number n => exact .number n
  | literal s => exact .literal s
  | nullary f => exact .call (.nullary f) [] rfl
  | unary f argument => exact .call (.unary f) [argument] rfl
  | ofContext f => exact .call (.optional f) [] rfl
  | ofArgument f argument => exact .call (.optional f) [argument] rfl
  | binary f first second => exact .call (.binary f) [first, second] rfl
  | substringFrom text start => exact .call .substring [text, start] rfl
  | substring text start length =>
      exact .call .substring [text, start, length] rfl
  | translate text source target =>
      exact .call .translate [text, source, target] rfl
  | concat first second others =>
      exact .call .concat (first :: second :: others) rfl

/-- A call nests as its arguments do. -/
theorem CoreFunction.nesting_of_call? {function : CoreFunction} {arguments : List Expr} {call : Expr}
    (h : function.call? arguments = some call) :
    call.nesting = listNesting arguments := by
  unfold CoreFunction.call? at h
  split at h
  case h_10 => cases h
  all_goals
    cases h
    simp only [Expr.nesting, listNesting, Nat.max_zero]

namespace Parse

/-- The spelling of an operator. -/
def Operator.spelling : Operator → String
  | or => "or"
  | and => "and"
  | compare op => op.spelling
  | arithmetic op => op.spelling
  | union => "|"

theorem Operator.written_apply (operator : Operator) (left right : Expr) :
    (operator.apply left right).written = infixText operator.spelling left.written right.written := by
  cases operator <;> rfl

theorem Operator.nesting_apply (operator : Operator) (left right : Expr) :
    (operator.apply left right).nesting = max (left.nesting + 1) (right.nesting + 1) := by
  cases operator <;> rfl

/-- What follows the left operand of an operator. -/
def Operator.rightText (operator : Operator) (more : List Char) : List Char :=
  operator.spelling.toList ++ ' ' :: more

theorem Operator.exists_rightText_eq_cons (operator : Operator) (more : List Char) :
    ∃ c others, operator.rightText more = c :: others ∧ Text.isSpace c = false ∧ c ≠ '[' ∧ c ≠ '/' ∧
      (operator ≠ .union → c ≠ '|') := by
  rcases operator with _ | _ | op | op | _ <;> try cases op
  all_goals exact ⟨_, _, rfl, rfl, by decide, by decide, by decide⟩

/-- The readers of operators, from the lowest precedence to the highest. -/
def operatorReaders : List OperatorReader :=
  [orOperator?, andOperator?, equalityOperator?, relationalOperator?, additiveOperator?,
    multiplicativeOperator?]

/-- Whether readers find none of their operators at the start of a text. -/
def Refuse (readers : List OperatorReader) (s : List Char) : Prop :=
  ∀ reader ∈ readers, reader s = none

theorem refuse_of_all {readers : List OperatorReader} {s : List Char}
    (h : (readers.all fun reader => (reader s).isNone) = true) :
    Refuse readers s :=
  fun reader hMem => Option.isNone_iff_eq_none.1 (List.all_eq_true.1 h reader hMem)

/-- Every operator but the union has its precedence, and the readers of higher ones refuse it. -/
theorem Operator.exists_reader {operator : Operator} (h : operator ≠ .union) :
    ∃ looser reader tighter, operatorReaders = looser ++ reader :: tighter ∧
      ∀ more, reader (operator.rightText more) = some (operator, ' ' :: more) ∧
        Refuse tighter (operator.rightText more) := by
  cases operator with
  | or => exact ⟨[], _, _, rfl, fun more => ⟨rfl, refuse_of_all rfl⟩⟩
  | and => exact ⟨[_], _, _, rfl, fun more => ⟨rfl, refuse_of_all rfl⟩⟩
  | compare op =>
      cases op with
      | equal | notEqual => exact ⟨[_, _], _, _, rfl, fun more => ⟨rfl, refuse_of_all rfl⟩⟩
      | less | lessOrEqual | greater | greaterOrEqual =>
          exact ⟨[_, _, _], _, _, rfl, fun more => ⟨rfl, refuse_of_all rfl⟩⟩
  | arithmetic op =>
      cases op with
      | add | subtract => exact ⟨[_, _, _, _], _, _, rfl, fun more => ⟨rfl, refuse_of_all rfl⟩⟩
      | multiply | divide | modulo =>
          exact ⟨[_, _, _, _, _], _, _, rfl, fun more => ⟨rfl, refuse_of_all rfl⟩⟩
  | union => exact absurd rfl h

/-- No operator begins where an expression may end. -/
theorem refuse_of_goesOn {rest : List Char} (h : GoesOn closers rest) :
    Refuse (unionOperator? :: operatorReaders) rest := by
  cases rest with
  | nil => exact refuse_of_all rfl
  | cons c others =>
      have hMem := h c rfl
      simp only [closers, List.mem_cons, List.not_mem_nil, or_false] at hMem
      rcases hMem with rfl | rfl | rfl <;> exact refuse_of_all rfl

section Chain

variable {operator? : OperatorReader} {operand : Reader Expr} {s rest next last : List Char}
  {operator : Operator} {left right : Expr}

/-- Where the operator is refused, the operand stands alone. -/
theorem chain_of_refused (hOperand : operand s = .ok (left, rest)) (hSkip : skipSpace rest = rest)
    (hRefused : operator? rest = none) :
    chain operator? operand s = .ok (left, rest) := by
  refine bind_eq_ok hOperand ?_
  dsimp only
  rw [chainWithin, hSkip, hRefused]

/-- Two operands with an operator between them, where no further operator follows. -/
theorem chain_pair (hLeft : operand s = .ok (left, rest)) (hSkip : skipSpace rest = rest)
    (hOperator : operator? rest = some (operator, next)) (hRest : rest ≠ [])
    (hRight : operand next = .ok (right, last)) (hLastSkip : skipSpace last = last)
    (hRefused : operator? last = none) :
    chain operator? operand s = .ok (operator.apply left right, last) := by
  obtain ⟨c, others, rfl⟩ := List.exists_cons_of_ne_nil hRest
  refine bind_eq_ok hLeft ?_
  dsimp only
  rw [chainWithin, hSkip, hOperator]
  refine bind_eq_ok hRight ?_
  dsimp only
  rw [List.length_cons, chainWithin, hLastSkip, hRefused]

/-- Where all operators are refused, the operand stands alone. -/
theorem foldr_chain_of_refused {readers : List OperatorReader}
    (hOperand : operand s = .ok (left, rest)) (hSkip : skipSpace rest = rest)
    (hRefused : Refuse readers rest) :
    readers.foldr chain operand s = .ok (left, rest) := by
  induction readers with
  | nil => exact hOperand
  | cons reader others ih =>
      refine chain_of_refused (ih fun other hMem => ?_) hSkip (hRefused reader (List.mem_cons_self ..))
      exact hRefused other (List.mem_cons_of_mem _ hMem)

/-- Two operands with an operator between them that only higher precedences refuse. -/
theorem foldr_chain_pair {looser tighter : List OperatorReader}
    (hLeft : operand s = .ok (left, rest)) (hSkip : skipSpace rest = rest)
    (hOperator : operator? rest = some (operator, next)) (hRest : rest ≠ [])
    (hTighter : Refuse tighter rest)
    (hRight : operand next = .ok (right, last)) (hLastSkip : skipSpace last = last)
    (hRefused : Refuse (looser ++ operator? :: tighter) last) :
    (looser ++ operator? :: tighter).foldr chain operand s =
      .ok (operator.apply left right, last) := by
  rw [List.foldr_append, List.foldr_cons]
  have hTightRight := foldr_chain_of_refused hRight hLastSkip fun reader hMem =>
    hRefused reader (List.mem_append_right _ (List.mem_cons_of_mem _ hMem))
  have hPair := chain_pair (foldr_chain_of_refused hLeft hSkip hTighter) hSkip hOperator hRest
    hTightRight hLastSkip
    (hRefused operator? (List.mem_append_right _ (List.mem_cons_self ..)))
  exact foldr_chain_of_refused hPair hLastSkip fun reader hMem =>
    hRefused reader (List.mem_append_left _ hMem)

end Chain

section Levels

variable {operand nested : Reader Expr} {s rest text leftText rightText : List Char}
  {expr left right : Expr}

theorem reads_binaryLevels (h : Reads operand text expr) :
    Reads (binaryLevels operand) text expr :=
  fun rest hRest => foldr_chain_of_refused (h rest hRest) (skipSpace_of_closers hRest)
    fun reader hMem => refuse_of_goesOn hRest reader (List.mem_cons_of_mem _ hMem)

/-- What begins with a minus sign is no path. -/
theorem signed_of_pathExpr (h : pathExpr nested s = .ok (expr, rest)) (hSkip : skipSpace rest = rest)
    (hRefused : unionOperator? rest = none) :
    signed operand nested s = .ok (expr, rest) := by
  rw [← pathExpr_skipSpace] at h
  rw [signed]
  split
  · rename_i more hMinus
    rw [hMinus] at h
    cases h
  · exact chain_of_refused h hSkip hRefused

theorem reads_signed (h : Reads (pathExpr nested) text expr) :
    Reads (signed operand nested) text expr :=
  fun rest hRest => signed_of_pathExpr (h rest hRest) (skipSpace_of_closers hRest)
    (refuse_of_goesOn hRest unionOperator? (List.mem_cons_self ..))

theorem reads_signed_parenthesized (h : Reads nested text expr) :
    Reads (signed operand nested) (parenthesized text) expr :=
  reads_signed (readsOperand_parenthesized h).reads

/-- The left operand of an operator, up to the operator. -/
theorem pathExpr_left (h : Reads nested text expr) (operator : Operator) (more : List Char) :
    pathExpr nested (parenthesized text ++ ' ' :: operator.rightText more) =
      .ok (expr, operator.rightText more) := by
  obtain ⟨c, others, hText, hSpace, hBracket, hSlash, -⟩ := operator.exists_rightText_eq_cons more
  have hSkip : skipSpace (' ' :: operator.rightText more) = operator.rightText more := by
    rw [Text.skipSpace_cons_of_isSpace rfl, hText, Text.skipSpace_cons_of_not_isSpace hSpace]
  have hOperand := readsOperand_parenthesized h (' ' :: operator.rightText more)
    (by rw [hSkip, hText]; simpa using hBracket) (by rw [hSkip, hText]; simpa using hSlash)
  rw [hSkip] at hOperand
  exact hOperand

theorem written_apply_append (operator : Operator) (left right : Expr) (rest : List Char) :
    (operator.apply left right).written ++ rest =
      parenthesized left.written ++
        ' ' :: operator.rightText (parenthesized right.written ++ rest) := by
  rw [operator.written_apply, infixText, Operator.rightText]
  simp only [List.append_assoc, List.cons_append]

theorem reads_union (hLeft : Reads nested left.written left)
    (hRight : Reads nested right.written right) :
    Reads (signed operand nested) (Operator.union.apply left right).written
      (Operator.union.apply left right) := by
  intro rest hRest
  have hFirst := pathExpr_left hLeft .union (parenthesized right.written ++ rest)
  have hSecond := (readsOperand_parenthesized hRight).reads rest hRest
  rw [written_apply_append]
  exact chain_pair hFirst rfl rfl nofun hSecond (skipSpace_of_closers hRest)
    (refuse_of_goesOn hRest unionOperator? (List.mem_cons_self ..))

theorem Operator.skipSpace_rightText (operator : Operator) (more : List Char) :
    skipSpace (operator.rightText more) = operator.rightText more := by
  obtain ⟨c, others, hText, hSpace, -⟩ := operator.exists_rightText_eq_cons more
  rw [hText, Text.skipSpace_cons_of_not_isSpace hSpace]

/-- The left operand of any operator but the union. -/
theorem signed_left {operator : Operator} (h : Reads nested text expr) (hUnion : operator ≠ .union)
    (more : List Char) :
    signed operand nested (parenthesized text ++ ' ' :: operator.rightText more) =
      .ok (expr, operator.rightText more) := by
  obtain ⟨c, others, hText, -, -, -, hBar⟩ := operator.exists_rightText_eq_cons more
  refine signed_of_pathExpr (pathExpr_left h operator more) (operator.skipSpace_rightText more) ?_
  rw [hText, unionOperator?.eq_def]
  split
  · rename_i hEq
    exact absurd (List.cons.inj hEq).1 (hBar hUnion)
  · rfl

/-- Two operands in parentheses are read with the operator between them. -/
theorem reads_operator (operator : Operator) (hLeft : Reads nested left.written left)
    (hRight : Reads nested right.written right) :
    Reads (binaryLevels (signed operand nested)) (operator.apply left right).written
      (operator.apply left right) := by
  by_cases hUnion : operator = .union
  · subst hUnion
    exact reads_binaryLevels (reads_union hLeft hRight)
  · intro rest hRest
    obtain ⟨looser, reader, tighter, hReaders, hReader⟩ := operator.exists_reader hUnion
    obtain ⟨hOperator, hTighter⟩ := hReader (parenthesized right.written ++ rest)
    obtain ⟨c, others, hText, -⟩ :=
      operator.exists_rightText_eq_cons (parenthesized right.written ++ rest)
    have hFirst : signed operand nested _ = _ :=
      signed_left hLeft hUnion (parenthesized right.written ++ rest)
    have hInner : Reads (signed operand nested) (parenthesized right.written) right :=
      reads_signed_parenthesized hRight
    have hSecond : signed operand nested (' ' :: (parenthesized right.written ++ rest)) =
        .ok (right, rest) := hInner rest hRest
    have hRefuse : Refuse operatorReaders rest := fun other hMem =>
      refuse_of_goesOn hRest other (List.mem_cons_of_mem _ hMem)
    have hLevels : binaryLevels (signed operand nested) =
        operatorReaders.foldr chain (signed operand nested) := rfl
    rw [written_apply_append, hLevels]
    rw [hReaders] at hRefuse ⊢
    exact foldr_chain_pair hFirst (operator.skipSpace_rightText _) hOperator
      (hText ▸ List.cons_ne_nil _ _) hTighter hSecond (skipSpace_of_closers hRest) hRefuse

/-- A minus sign is read with its operand in parentheses. -/
theorem reads_negate (h : Reads operand (parenthesized expr.written) expr) :
    Reads (binaryLevels (signed operand nested)) (Expr.negate expr).written (.negate expr) :=
  reads_binaryLevels fun rest hRest => bind_eq_ok (h rest hRest) rfl

end Levels

/-- What is written for an expression begins as an argument may. -/
theorem opens_written {expr : Expr} (h : expr.isWritable = true) :
    Opens expr.written := by
  cases expr.form with
  | path absolute steps =>
      cases absolute with
      | true => exact ⟨'/', _, rfl, rfl, by decide⟩
      | false =>
          cases steps with
          | nil => cases h
          | cons first others =>
              obtain ⟨axis, test, predicates⟩ := first
              rw [written_path_cons, Step.written]
              cases axis <;> exact ⟨_, _, rfl, rfl, by decide⟩
  | filter primary predicates steps => exact ⟨'(', _, rfl, rfl, by decide⟩
  | operator operator left right =>
      rw [operator.written_apply]
      exact ⟨'(', _, rfl, rfl, by decide⟩
  | negate operand => exact ⟨'-', _, rfl, rfl, by decide⟩
  | number n =>
      obtain ⟨c, more, hText, hDigit⟩ :=
        Binary64.exists_literalText_eq_cons (Expr.isWritable_number.symm.trans h)
      exact ⟨c, more, hText, isSpace_of_isDigit hDigit, by rintro rfl; cases hDigit⟩
  | literal s =>
      rw [Expr.written, quotedText]
      split
      · exact ⟨'"', _, rfl, rfl, by decide⟩
      · exact ⟨'\x27', _, rfl, rfl, by decide⟩
  | call function arguments hCall =>
      rw [written_of_call? hCall, callText]
      rcases function with f | f | f | f | _ | _ | _ <;> try cases f
      all_goals exact ⟨_, _, rfl, rfl, by decide⟩

section Nested

variable {operand nested : Reader Expr} {levels : Nat}

/-- An expression is read from its text if the expressions within it are, as far as they nest less. -/
theorem reads_written
    (hNested : ∀ part : Expr, part.isWritable = true → part.nesting < levels →
      Reads nested part.written part)
    (hOperand : ∀ part : Expr, part.isWritable = true → part.nesting + 1 < levels →
      Reads operand (parenthesized part.written) part)
    {expr : Expr} (hForm : expr.isWritable = true) (hLevels : expr.nesting ≤ levels) :
    Reads (binaryLevels (signed operand nested)) expr.written expr := by
  have hList : ∀ exprs : List Expr, listWritable exprs = true → listNesting exprs ≤ levels →
      ∀ part ∈ exprs, Reads nested part.written part := fun exprs hExprs hLess part hMem =>
    hNested part (listWritable_iff.1 hExprs _ hMem)
      (Nat.lt_of_lt_of_le (nesting_lt_of_mem hMem) hLess)
  have hSteps : ∀ steps : List Step, stepsWritable steps = true → stepsNesting steps ≤ levels →
      ReadsSteps nested steps := fun steps hParts hLess step hStep =>
    ⟨(stepsWritable_iff.1 hParts _ hStep).1, fun part hMem =>
      hNested part (listWritable_iff.1 (stepsWritable_iff.1 hParts _ hStep).2 _ hMem)
        (Nat.lt_of_lt_of_le (nesting_lt_of_mem_step hStep hMem) hLess)⟩
  cases expr.form with
  | path absolute steps =>
      rw [Expr.isWritable_path, Bool.and_eq_true] at hForm
      rw [Expr.nesting] at hLevels
      refine reads_binaryLevels (reads_signed (reads_path ?_ (hSteps steps hForm.2 hLevels)))
      simpa using hForm.1
  | filter primary predicates steps =>
      simp only [Expr.isWritable_filter, Bool.and_eq_true] at hForm
      obtain ⟨⟨⟨hSome, hPrimary⟩, hPredicates⟩, hTail⟩ := hForm
      rw [Expr.nesting] at hLevels
      refine reads_binaryLevels (reads_signed (reads_filter ?_ (hNested primary hPrimary (by omega))
        (hList predicates hPredicates (by omega)) (hSteps steps hTail (by omega))))
      simpa using hSome
  | operator operator left right =>
      rw [operator.isWritable_apply, Bool.and_eq_true] at hForm
      rw [operator.nesting_apply] at hLevels
      exact reads_operator operator (hNested left hForm.1 (by omega))
        (hNested right hForm.2 (by omega))
  | negate part =>
      rw [Expr.nesting] at hLevels
      exact reads_negate (hOperand part hForm (by omega))
  | number n =>
      exact reads_binaryLevels (reads_signed (reads_number (Expr.isWritable_number.symm.trans hForm)))
  | literal s =>
      exact reads_binaryLevels
        (reads_signed (reads_literal (Expr.isWritable_literal.symm.trans hForm)))
  | call function arguments hCall =>
      rw [CoreFunction.isWritable_of_call? hCall] at hForm
      rw [CoreFunction.nesting_of_call? hCall] at hLevels
      exact reads_binaryLevels (reads_signed (reads_call hCall fun part hMem =>
        ⟨opens_written (listWritable_iff.1 hForm _ hMem), hList arguments hForm hLevels part hMem⟩))

end Nested

/-- Expressions are read from their texts if they nest no deeper than is allowed; and in parentheses,
if they nest less deeply than that. -/
theorem reads_written_unary (levels : Nat) :
    (∀ expr : Expr, expr.isWritable = true → expr.nesting ≤ levels →
      Reads (binaryLevels (unary levels)) expr.written expr) ∧
    ∀ expr : Expr, expr.isWritable = true → expr.nesting < levels →
      Reads (unary levels) (parenthesized expr.written) expr := by
  induction levels with
  | zero =>
      constructor
      · intro expr hForm hLevels
        exact reads_written (fun _ _ hLess => absurd hLess (Nat.not_lt_zero _))
          (fun _ _ hLess => absurd hLess (Nat.not_lt_zero _)) hForm hLevels
      · exact fun _ _ hLess => absurd hLess (Nat.not_lt_zero _)
  | succ levels ih =>
      obtain ⟨hNested, hOperand⟩ := ih
      constructor
      · intro expr hForm hLevels
        exact reads_written (fun part hPart hLess => hNested part hPart (Nat.le_of_lt_succ hLess))
          (fun part hPart hLess => hOperand part hPart (Nat.lt_of_succ_lt_succ hLess)) hForm hLevels
      · intro expr hForm hLess
        exact reads_signed_parenthesized (hNested expr hForm (Nat.le_of_lt_succ hLess))

/-- A text that the outermost reader takes off is an expression by itself. -/
theorem parse_eq_ok_of_reads {text : List Char} {expr : Expr}
    (h : Reads (binaryLevels (unary 63)) text expr) :
    parse (String.ofList text) = .ok expr := by
  have hReads := h [] (goesOn_nil closers)
  rw [List.append_nil] at hReads
  have hWhole : whole text = .ok expr := bind_eq_ok hReads rfl
  rw [parse, String.toList_ofList, hWhole]

/-- What any reader of paths takes off is an expression by itself. -/
theorem parse_eq_ok_of_reads_pathExpr {text : List Char} {expr : Expr}
    (h : ∀ nested, Reads (pathExpr nested) text expr) :
    parse (String.ofList text) = .ok expr :=
  parse_eq_ok_of_reads (reads_binaryLevels (reads_signed (h _)))

end Parse

end CborPath
