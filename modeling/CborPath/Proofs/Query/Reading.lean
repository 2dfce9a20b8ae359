import CborPath.Proofs.Outcome
import CborPath.Proofs.Query.Lexeme

/-!
# Constructs read back

What is written for a path, a filter, a literal or a call is read as what it was written for, if the
expressions within it are.  The reader of nested expressions is a parameter here, and all that is
asked of it is that it reads these expressions.
-/

namespace CborPath

open Text (isSpace skipSpace)

namespace Parse

/-- Whether a reader takes off a text as an expression wherever an expression may end after it. -/
def Reads (reader : Reader Expr) (text : List Char) (expr : Expr) : Prop :=
  ∀ rest, GoesOn closers rest → reader (text ++ rest) = .ok (expr, rest)

/-- Whether a reader takes off a text as an expression wherever neither a predicate nor a step
follows. -/
def ReadsOperand (reader : Reader Expr) (text : List Char) (expr : Expr) : Prop :=
  ∀ rest, (skipSpace rest).head? ≠ some '[' → (skipSpace rest).head? ≠ some '/' →
    reader (text ++ rest) = .ok (expr, skipSpace rest)

/-- Neither follows where an expression may end. -/
theorem ReadsOperand.reads {reader : Reader Expr} {text : List Char} {expr : Expr}
    (h : ReadsOperand reader text expr) :
    Reads reader text expr := by
  intro rest hRest
  rw [h rest (head?_ne_bracket hRest.stepEnds) (head?_ne_slash hRest), skipSpace_of_closers hRest]

variable {nested : Reader Expr} {rest s : List Char}

/-- Texts with a mark between them are the first one and the others led by the mark. -/
theorem intercalate_cons (mark : Char) (first : List Char) (others : List (List Char)) :
    List.intercalate [mark] (first :: others) = first ++ others.flatMap (mark :: ·) := by
  induction others generalizing first with
  | nil => simp [List.intercalate]
  | cons second others ih =>
      rw [List.flatMap_cons, List.cons_append, ← ih second]
      simp [List.intercalate]

section Predicates

/-- Where no bracket opens, there are no predicates. -/
theorem predicatesWithin_of_head?_ne (h : (skipSpace s).head? ≠ some '[') (bound : Nat) :
    predicatesWithin nested (bound + 1) s = .ok ([], skipSpace s) := by
  rw [predicatesWithin]
  split
  · rename_i hBracket
    exact absurd (congrArg List.head? hBracket) h
  · rfl

theorem predicates_of_head?_ne (h : (skipSpace s).head? ≠ some '[') :
    predicates nested s = .ok ([], skipSpace s) :=
  predicatesWithin_of_head?_ne h _

theorem predicatesWithin_written {exprs : List Expr}
    (hEach : ∀ expr ∈ exprs, Reads nested expr.written expr) (hRest : GoesOn stepEnds rest)
    (bound : Nat) (hBound : (writtenPredicates exprs ++ rest).length < bound) :
    predicatesWithin nested bound (writtenPredicates exprs ++ rest) = .ok (exprs, rest) := by
  induction exprs generalizing bound with
  | nil =>
      obtain ⟨bound, rfl⟩ : ∃ less, bound = less + 1 := ⟨bound - 1, by omega⟩
      rw [writtenPredicates, List.nil_append, predicatesWithin_of_head?_ne (head?_ne_bracket hRest),
        skipSpace_of_stepEnds hRest]
  | cons expr others ih =>
      obtain ⟨bound, rfl⟩ : ∃ less, bound = less + 1 := ⟨bound - 1, by omega⟩
      rw [writtenPredicates, List.cons_append, List.append_assoc, List.cons_append] at hBound ⊢
      have hFirst := hEach expr (List.mem_cons_self ..) _
        (goesOn_bracket (writtenPredicates others ++ rest))
      have hOthers := ih (fun other hMem => hEach other (List.mem_cons_of_mem _ hMem)) bound
        (by simp only [List.length_cons, List.length_append] at hBound ⊢; omega)
      exact bind_eq_ok hFirst (bind_eq_ok (expect_eq_ok_iff.2 rfl) (bind_eq_ok hOthers rfl))

theorem predicates_written {exprs : List Expr}
    (hEach : ∀ expr ∈ exprs, Reads nested expr.written expr) (hRest : GoesOn stepEnds rest) :
    predicates nested (writtenPredicates exprs ++ rest) = .ok (exprs, rest) :=
  predicatesWithin_written hEach hRest _ (Nat.lt_succ_self _)

end Predicates

section Steps

/-- Whether a reader takes off the expressions in the predicates of steps. -/
def ReadsSteps (nested : Reader Expr) (steps : List Step) : Prop :=
  ∀ step ∈ steps, step.test.isWritable = true ∧
    ∀ expr ∈ step.predicates, Reads nested expr.written expr

/-- With a named axis, a step is read by its parts. -/
theorem step_axis (axis : Axis) (s : List Char) :
    step nested (axis.name.toList ++ ':' :: ':' :: s) = (do
      let (test, rest) ← nodeTest s
      let (predicates, rest) ← predicates nested rest
      return (.mk axis test predicates, rest)) := by
  cases axis <;> rfl

theorem step_of_points (hStart : skipSpace s = '.' :: '.' :: rest) :
    step nested s = .ok (.parent, rest) := by
  rw [step, hStart]
  rfl

theorem step_of_point (hStart : skipSpace s = '.' :: rest) (hOne : rest.head? ≠ some '.') :
    step nested s = .ok (.self, rest) := by
  rw [step, hStart]
  split
  · rename_i hTwo
    cases hTwo
    exact absurd rfl hOne
  · rename_i hPoint
    cases hPoint
    rfl
  · rename_i hNone
    exact absurd rfl (hNone rest)

/-- A step that is not abbreviated is read by its parts. -/
theorem step_of_head?_ne (h : (skipSpace s).head? ≠ some '.') :
    step nested s = (do
      let (axis, rest) ← axis (skipSpace s)
      let (test, rest) ← nodeTest rest
      let (predicates, rest) ← predicates nested rest
      return (.mk axis test predicates, rest)) := by
  rw [step]
  split
  · rename_i hPoint
    exact absurd (congrArg List.head? hPoint) h
  · rename_i hPoint
    exact absurd (congrArg List.head? hPoint) h
  · rfl

/-- Without an axis, a step looks at children and is read by its other parts. -/
theorem step_child {test : NodeTest} (hTest : test.isWritable = true) (hRest : EndsTest s) :
    step nested (test.written ++ s) = (do
      let (predicates, rest) ← predicates nested s
      return (.mk .child test predicates, rest)) := by
  obtain ⟨c, others, hText, hSpace, hMarks⟩ := exists_written_eq_cons hTest
  have hSkip : skipSpace (test.written ++ s) = test.written ++ s := by
    rw [hText, List.cons_append, Text.skipSpace_cons_of_not_isSpace hSpace]
  have hHead : (skipSpace (test.written ++ s)).head? ≠ some '.' := by
    rw [hSkip, hText]
    exact head?_cons_ne_of_not_mem hMarks (by decide) _
  rw [step_of_head?_ne hHead, hSkip, axis_written hTest hRest]
  show nodeTest (test.written ++ s) >>= _ = _
  rw [nodeTest_written hTest hRest]
  rfl

theorem step_written {step : Step} (hStep : ReadsSteps nested [step]) (hRest : GoesOn stepEnds rest) :
    Parse.step nested (step.written ++ rest) = .ok (step, rest) := by
  obtain ⟨hTest, hEach⟩ := hStep step (List.mem_singleton_self step)
  obtain ⟨axis, test, exprs⟩ := step
  have hEnd : GoesOn testEnds (writtenPredicates exprs ++ rest) := by
    cases exprs with
    | nil => exact hRest.mono (List.subset_cons_self '[' stepEnds)
    | cons expr others => exact goesOn_cons (by decide) _
  rw [Step.written, List.append_assoc, List.cons_append, List.cons_append, List.append_assoc,
    step_axis]
  exact bind_eq_ok (nodeTest_written hTest hEnd.endsTest) (bind_eq_ok (predicates_written hEach hRest) rfl)

/-- Where no slash follows, there are no further steps. -/
theorem pathTailWithin_of_head?_ne (h : (skipSpace s).head? ≠ some '/') (bound : Nat) :
    pathTailWithin nested (bound + 1) s = .ok ([], skipSpace s) := by
  rw [pathTailWithin]
  split
  · rename_i hSlash
    exact absurd (congrArg List.head? hSlash) h
  · rename_i hSlash
    exact absurd (congrArg List.head? hSlash) h
  · rfl

theorem pathTail_of_head?_ne (h : (skipSpace s).head? ≠ some '/') :
    pathTail nested s = .ok ([], skipSpace s) :=
  pathTailWithin_of_head?_ne h _

/-- The text of steps that are each led by a slash. -/
def tailText (steps : List Step) : List Char :=
  (writtenSteps steps).flatMap ('/' :: ·)

theorem tailText_cons (step : Step) (steps : List Step) :
    tailText (step :: steps) = '/' :: (step.written ++ tailText steps) :=
  rfl

theorem goesOn_tailText (steps : List Step) (hRest : GoesOn closers rest) :
    GoesOn stepEnds (tailText steps ++ rest) := by
  cases steps with
  | nil => exact hRest.stepEnds
  | cons step others => exact goesOn_cons (by decide) _

theorem pathTailWithin_axis (axis : Axis) (bound : Nat) (s : List Char) :
    pathTailWithin nested (bound + 1) ('/' :: (axis.name.toList ++ s)) = (do
      let (next, rest) ← step nested (axis.name.toList ++ s)
      let (others, rest) ← pathTailWithin nested bound rest
      return (next :: others, rest)) := by
  cases axis <;> rfl

theorem pathTailWithin_written {steps : List Step} (hSteps : ReadsSteps nested steps)
    (hRest : GoesOn closers rest) (bound : Nat) (hBound : (tailText steps ++ rest).length < bound) :
    pathTailWithin nested bound (tailText steps ++ rest) = .ok (steps, rest) := by
  induction steps generalizing bound with
  | nil =>
      obtain ⟨bound, rfl⟩ : ∃ less, bound = less + 1 := ⟨bound - 1, by omega⟩
      have hNil : tailText [] ++ rest = rest := rfl
      rw [hNil, pathTailWithin_of_head?_ne (head?_ne_slash hRest), skipSpace_of_closers hRest]
  | cons first others ih =>
      obtain ⟨bound, rfl⟩ : ∃ less, bound = less + 1 := ⟨bound - 1, by omega⟩
      rw [tailText_cons, List.cons_append, List.append_assoc] at hBound ⊢
      have hFirst : Parse.step nested (first.written ++ (tailText others ++ rest)) = .ok (first, _) :=
        step_written (fun step hMem => hSteps step (by simp_all)) (goesOn_tailText others hRest)
      have hOthers := ih (fun step hMem => hSteps step (List.mem_cons_of_mem _ hMem)) bound
        (by simp only [List.length_cons, List.length_append] at hBound ⊢; omega)
      obtain ⟨axis, test, exprs⟩ := first
      rw [Step.written, List.append_assoc] at hFirst ⊢
      rw [pathTailWithin_axis]
      exact bind_eq_ok hFirst (bind_eq_ok hOthers rfl)

theorem relativePath_written {first : Step} {others : List Step}
    (hSteps : ReadsSteps nested (first :: others)) (hRest : GoesOn closers rest) :
    relativePath nested (first.written ++ (tailText others ++ rest)) = .ok (first :: others, rest) := by
  have hFirst : Parse.step nested (first.written ++ (tailText others ++ rest)) = .ok (first, _) :=
    step_written (fun step hMem => hSteps step (by simp_all)) (goesOn_tailText others hRest)
  have hOthers := pathTailWithin_written
    (fun step hMem => hSteps step (List.mem_cons_of_mem _ hMem)) hRest _ (Nat.lt_succ_self _)
  exact bind_eq_ok hFirst (bind_eq_ok hOthers rfl)

theorem pathExpr_slash (s : List Char) :
    pathExpr nested ('/' :: s) = locationPath nested ('/' :: s) :=
  rfl

theorem pathExpr_axis (axis : Axis) (s : List Char) :
    pathExpr nested (axis.name.toList ++ ':' :: ':' :: s) =
      relativePath nested (axis.name.toList ++ ':' :: ':' :: s) >>= fun read =>
        pure (.path false read.1, read.2) := by
  cases axis <;> rfl

theorem locationPath_slash_axis (axis : Axis) (s : List Char) :
    locationPath nested ('/' :: (axis.name.toList ++ s)) =
      relativePath nested (axis.name.toList ++ s) >>= fun read =>
        pure (.path true read.1, read.2) := by
  cases axis <;> rfl

theorem written_path_cons (absolute : Bool) (first : Step) (others : List Step) :
    (Expr.path absolute (first :: others)).written =
      (if absolute then ['/'] else []) ++ (first.written ++ tailText others) := by
  rw [Expr.written, writtenSteps, intercalate_cons]
  rfl

/-- A path is read as its steps. -/
theorem reads_path {absolute : Bool} {steps : List Step}
    (hForm : absolute = true ∨ steps ≠ []) (hSteps : ReadsSteps nested steps) :
    Reads (pathExpr nested) (Expr.path absolute steps).written (.path absolute steps) := by
  intro rest hRest
  cases steps with
  | nil =>
      have hAbsolute : absolute = true := hForm.resolve_right (· rfl)
      have hStart : startsStep rest = false := hRest.any_eq_false (by decide)
      have hSkip := skipSpace_of_closers hRest
      have hSlash := hRest.head?_ne (show '/' ∉ closers by decide)
      subst hAbsolute
      show pathExpr nested ('/' :: rest) = _
      rw [pathExpr_slash, locationPath.eq_def]
      split
      · rename_i hEq
        cases hEq
        exact absurd rfl hSlash
      · rename_i hEq
        cases hEq
        rw [hSkip, hStart, if_neg Bool.false_ne_true]
      · rename_i hNone
        exact absurd rfl (hNone rest)
  | cons first others =>
      have hRead := relativePath_written hSteps hRest
      rw [written_path_cons]
      obtain ⟨axis, test, exprs⟩ := first
      rw [Step.written, List.append_assoc] at hRead ⊢
      cases absolute with
      | true =>
          show pathExpr nested ('/' :: (_ ++ rest)) = _
          rw [pathExpr_slash, List.append_assoc, List.append_assoc, locationPath_slash_axis]
          exact bind_eq_ok hRead rfl
      | false =>
          show pathExpr nested (_ ++ rest) = _
          rw [List.append_assoc, List.append_assoc]
          exact (pathExpr_axis axis _).trans (bind_eq_ok hRead rfl)

end Steps

/-- White space before an expression makes no difference. -/
theorem pathExpr_skipSpace (s : List Char) :
    pathExpr nested (skipSpace s) = pathExpr nested s := by
  rw [pathExpr, pathExpr, Text.skipSpace_skipSpace]

section Primary

/-- A primary expression stands for itself where neither a predicate nor a step follows. -/
theorem filterExpr_of_primary {expr : Expr} (hPrimary : primary nested s = .ok (expr, rest))
    (hBracket : (skipSpace rest).head? ≠ some '[') (hSlash : (skipSpace rest).head? ≠ some '/') :
    filterExpr nested s = .ok (expr, skipSpace rest) := by
  have hTail : pathTail nested (skipSpace rest) = .ok ([], skipSpace (skipSpace rest)) :=
    pathTail_of_head?_ne (by rw [Text.skipSpace_skipSpace]; exact hSlash)
  rw [Text.skipSpace_skipSpace] at hTail
  exact bind_eq_ok hPrimary (bind_eq_ok (predicates_of_head?_ne hBracket) (bind_eq_ok hTail rfl))

/-- What is read as a primary expression is read as an expression. -/
theorem reads_of_primary {text : List Char} {expr : Expr}
    (hStart : ∀ rest, pathExpr nested (text ++ rest) = filterExpr nested (text ++ rest))
    (hPrimary : Reads (primary nested) text expr) :
    Reads (pathExpr nested) text expr := by
  intro rest hRest
  rw [hStart, filterExpr_of_primary (hPrimary rest hRest) (head?_ne_bracket hRest.stepEnds)
    (head?_ne_slash hRest), skipSpace_of_closers hRest]

theorem primary_parenthesized {text : List Char} {expr : Expr} (h : Reads nested text expr)
    (rest : List Char) :
    primary nested (parenthesized text ++ rest) = .ok (expr, rest) := by
  have hInner := h _ (goesOn_parenthesis rest)
  rw [parenthesized, List.cons_append, List.append_assoc]
  exact bind_eq_ok hInner (bind_eq_ok (expect_eq_ok_iff.2 rfl) rfl)

/-- Anything can be an operand in parentheses. -/
theorem readsOperand_parenthesized {text : List Char} {expr : Expr} (h : Reads nested text expr) :
    ReadsOperand (pathExpr nested) (parenthesized text) expr :=
  fun rest hBracket hSlash => filterExpr_of_primary (primary_parenthesized h rest) hBracket hSlash

/-- A filter is read as its parts. -/
theorem reads_filter {first : Expr} {exprs : List Expr} {steps : List Step}
    (hForm : exprs ≠ [] ∨ steps ≠ []) (hFirst : Reads nested first.written first)
    (hEach : ∀ expr ∈ exprs, Reads nested expr.written expr) (hSteps : ReadsSteps nested steps) :
    Reads (pathExpr nested) (Expr.filter first exprs steps).written (.filter first exprs steps) := by
  intro rest hRest
  have hEnd := goesOn_tailText steps hRest
  have hPredicates := predicates_written hEach hEnd
  have hTail := pathTailWithin_written hSteps hRest _ (Nat.lt_succ_self _)
  rw [Expr.written, List.append_assoc, List.append_assoc]
  refine bind_eq_ok (primary_parenthesized hFirst _) (bind_eq_ok hPredicates (bind_eq_ok hTail ?_))
  have hSome : ¬(exprs.isEmpty && steps.isEmpty) = true := by
    rcases hForm with hExprs | hSteps
    · simp [hExprs]
    · simp [hSteps]
  exact if_neg hSome

/-- A digit begins a number. -/
theorem pathExpr_digit {c : Char} (hDigit : c.isDigit = true) (s : List Char) :
    pathExpr nested (c :: s) = filterExpr nested (c :: s) := by
  have hStart : startsPrimary (c :: s) = true := by simp [startsPrimary, hDigit]
  rw [pathExpr, Text.skipSpace_cons_of_not_isSpace (isSpace_of_isDigit hDigit)]
  exact if_pos hStart

theorem primary_digit {c : Char} (hDigit : c.isDigit = true) (s : List Char) :
    primary nested (c :: s) =
      .ok (.number (numberLiteral (c :: s)).1, (numberLiteral (c :: s)).2) := by
  have hOther : ∀ d : Char, d.isDigit = false → c ≠ d := by
    rintro d hNone rfl
    rw [hDigit] at hNone
    cases hNone
  have hQuote : (decide (c = '"') || decide (c = '\x27')) = false := by
    rw [decide_eq_false (hOther '"' rfl), decide_eq_false (hOther '\x27' rfl), Bool.or_self]
  rw [primary.eq_def]
  split
  · rename_i hEq
    exact absurd (List.cons.inj hEq).1 (hOther '(' rfl)
  · rename_i hEq
    exact absurd (List.cons.inj hEq).1 (hOther '$' rfl)
  · simp only [List.head?_cons, hQuote, hDigit, Bool.true_or, if_true]
    rfl

theorem reads_number {n : Binary64} (h : n.isWritable = true) :
    Reads (pathExpr nested) n.literalText (.number n) := by
  obtain ⟨whole, fraction, hText, -, hDigits, hRead⟩ := Binary64.exists_literalText_eq h
  obtain ⟨c, more, hMore, hDigit⟩ := Binary64.exists_literalText_eq_cons h
  refine reads_of_primary (fun rest => ?_) fun rest hRest => ?_
  · rw [hMore]
    exact pathExpr_digit hDigit _
  · have hNumber := numberLiteral_pointed hDigits (hRest.any_eq_false (by decide))
      (hRest.head?_ne (by decide))
    rw [← hText, hMore] at hNumber
    rw [hMore, List.cons_append, primary_digit hDigit, ← List.cons_append, hNumber, hRead]

theorem reads_quoted {quote : Char} (hKind : quote = '"' ∨ quote = '\x27') {s : String}
    (h : quote ∉ s.toList) :
    Reads (pathExpr nested) (quote :: (s.toList ++ [quote])) (.literal s) := by
  have hLiteral : ∀ rest, textLiteral quote (s.toList ++ [quote] ++ rest) = .ok (s, rest) := by
    intro rest
    rw [textLiteral_eq_ok_iff, List.append_assoc]
    exact ⟨rfl, h⟩
  refine reads_of_primary (fun rest => ?_) fun rest _ => ?_
  · rcases hKind with rfl | rfl <;> rfl
  · rcases hKind with rfl | rfl <;> exact bind_eq_ok (hLiteral rest) rfl

/-- A text literal is read as its text. -/
theorem reads_literal {s : String} (h : isQuotable s = true) :
    Reads (pathExpr nested) (quotedText s.toList) (.literal s) := by
  rw [quotedText]
  split
  · rename_i hSingle
    refine reads_quoted (.inl rfl) fun hDouble => ?_
    simp [isQuotable, hSingle, hDouble] at h
  · rename_i hSingle
    exact reads_quoted (.inr rfl) hSingle

end Primary

section Call

/-- The text of arguments that are each led by a comma. -/
def furtherText (exprs : List Expr) : List Char :=
  (writtenArguments exprs).flatMap (',' :: ·)

theorem furtherText_cons_append (first : Expr) (others : List Expr) (rest : List Char) :
    furtherText (first :: others) ++ rest = ',' :: (first.written ++ (furtherText others ++ rest)) := by
  rw [furtherText, writtenArguments, List.flatMap_cons, List.cons_append, List.cons_append,
    List.append_assoc]
  rfl

theorem argumentsWithin_written {first : Expr} {others : List Expr}
    (hEach : ∀ expr ∈ first :: others, Reads nested expr.written expr) (bound : Nat)
    (hBound : (furtherText others ++ ')' :: rest).length < bound) :
    argumentsWithin nested bound (first.written ++ (furtherText others ++ ')' :: rest)) =
      .ok (first :: others, ')' :: rest) := by
  induction others generalizing first bound with
  | nil =>
      obtain ⟨bound, rfl⟩ : ∃ less, bound = less + 1 := ⟨bound - 1, by omega⟩
      have hFirst := hEach first (List.mem_cons_self ..) _ (goesOn_parenthesis rest)
      exact bind_eq_ok hFirst rfl
  | cons second others ih =>
      obtain ⟨bound, rfl⟩ : ∃ less, bound = less + 1 := ⟨bound - 1, by omega⟩
      rw [furtherText_cons_append] at hBound ⊢
      have hFirst := hEach first (List.mem_cons_self ..) _
        (goesOn_comma (second.written ++ (furtherText others ++ ')' :: rest)))
      have hOthers := ih (fun expr hMem => hEach expr (List.mem_cons_of_mem _ hMem)) bound
        (by simp only [List.length_cons, List.length_append] at hBound ⊢; omega)
      exact bind_eq_ok hFirst (bind_eq_ok hOthers rfl)

/-- Whether a text begins as an argument may: with neither white space nor a closing parenthesis. -/
def Opens (text : List Char) : Prop :=
  ∃ c rest, text = c :: rest ∧ isSpace c = false ∧ c ≠ ')'

/-- Where an argument begins, arguments are read up to the parenthesis. -/
theorem arguments_cons {first : Expr} (hOpens : Opens first.written) (others : List Expr)
    (rest : List Char) :
    arguments nested
        (List.intercalate [','] (writtenArguments (first :: others)) ++ ')' :: rest) = (do
      let text := first.written ++ (furtherText others ++ ')' :: rest)
      let (arguments, rest) ← argumentsWithin nested (text.length + 1) text
      let rest ← expect ')' rest
      return (arguments, rest)) := by
  have hText : List.intercalate [','] (writtenArguments (first :: others)) =
      first.written ++ furtherText others := intercalate_cons ',' first.written _
  obtain ⟨c, more, hFirst, hSpace, hClose⟩ := hOpens
  have hSkip : skipSpace (first.written ++ (furtherText others ++ ')' :: rest)) =
      first.written ++ (furtherText others ++ ')' :: rest) := by
    rw [hFirst]
    exact Text.skipSpace_cons_of_not_isSpace hSpace _
  rw [hText, List.append_assoc, arguments, hSkip]
  split
  · rename_i hEq
    rw [hFirst] at hEq
    exact absurd (List.cons.inj hEq).1 hClose
  · rfl

theorem arguments_written {exprs : List Expr}
    (hEach : ∀ expr ∈ exprs, Opens expr.written ∧ Reads nested expr.written expr)
    (rest : List Char) :
    arguments nested (List.intercalate [','] (writtenArguments exprs) ++ ')' :: rest) =
      .ok (exprs, rest) := by
  cases exprs with
  | nil => rfl
  | cons first others =>
      rw [arguments_cons (hEach first (List.mem_cons_self ..)).1]
      refine bind_eq_ok (argumentsWithin_written (fun expr hMem => (hEach expr hMem).2) _ ?_)
        (bind_eq_ok (expect_eq_ok_iff.2 rfl) rfl)
      simp only [List.length_append]
      omega

theorem pathExpr_spelling (function : CoreFunction) (s : List Char) :
    pathExpr nested (function.spelling.toList ++ '(' :: s) =
      filterExpr nested (function.spelling.toList ++ '(' :: s) := by
  rcases function with f | f | f | f | _ | _ | _ <;> try cases f
  all_goals rfl

theorem primary_spelling (function : CoreFunction) (s : List Char) :
    primary nested (function.spelling.toList ++ '(' :: s) =
      functionCall nested (function.spelling.toList ++ '(' :: s) := by
  rcases function with f | f | f | f | _ | _ | _ <;> try cases f
  all_goals rfl

theorem ofName?_spelling (function : CoreFunction) :
    CoreFunction.ofName? function.spelling = some function := by
  rcases function with f | f | f | f | _ | _ | _ <;> try cases f
  all_goals rfl

theorem isName_spelling (function : CoreFunction) :
    isName function.spelling.toList = true := by
  rcases function with f | f | f | f | _ | _ | _ <;> try cases f
  all_goals rfl

/-- The text of a call is that of its function and its arguments. -/
theorem written_of_call? {function : CoreFunction} {exprs : List Expr} {call : Expr}
    (h : function.call? exprs = some call) :
    call.written = callText function.spelling (writtenArguments exprs) := by
  unfold CoreFunction.call? at h
  split at h
  case h_10 => cases h
  all_goals
    cases h
    rfl

theorem written_of_call?_append {function : CoreFunction} {exprs : List Expr} {call : Expr}
    (h : function.call? exprs = some call) (rest : List Char) :
    call.written ++ rest = function.spelling.toList ++
      '(' :: (List.intercalate [','] (writtenArguments exprs) ++ ')' :: rest) := by
  rw [written_of_call? h, callText, parenthesized, List.append_assoc, List.cons_append,
    List.append_assoc]
  rfl

theorem name_spelling (function : CoreFunction) (s : List Char) :
    name (function.spelling.toList ++ '(' :: s) = .ok (function.spelling, '(' :: s) :=
  name_eq_ok_iff.2 ⟨rfl, isName_spelling function, rfl⟩

/-- A call is read as its function and its arguments. -/
theorem reads_call {function : CoreFunction} {exprs : List Expr} {call : Expr}
    (h : function.call? exprs = some call)
    (hEach : ∀ expr ∈ exprs, Opens expr.written ∧ Reads nested expr.written expr) :
    Reads (pathExpr nested) call.written call := by
  have hCall : Parse.call function.spelling exprs = .ok call := by
    rw [Parse.call, ofName?_spelling]
    dsimp only
    rw [h]
  refine reads_of_primary (fun rest => ?_) fun rest _ => ?_
  · rw [written_of_call?_append h]
    exact pathExpr_spelling function _
  · rw [written_of_call?_append h, primary_spelling]
    refine bind_eq_ok (name_spelling function _) (bind_eq_ok (expect_eq_ok_iff.2 rfl)
      (bind_eq_ok (arguments_written hEach rest) ?_))
    dsimp only
    rw [hCall]
    rfl

end Call

end Parse

end CborPath
