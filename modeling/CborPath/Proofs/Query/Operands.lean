import CborPath.Document.Atomic
import CborPath.Proofs.Query.Accepted

/-!
# Union operands

What stands between unions is a path or a primary expression with predicates and steps after it.  Where
accepted texts are its predicates, its arguments or in its parentheses, it is read as an expression made
of theirs, if each of them fits into the levels of nesting that are left.
-/

namespace CborPath

open Text (isSpace skipSpace)

/-- A primary expression as it is written: an accepted text in parentheses, a literal, or a call. -/
inductive Primary
  | group (e : Accepted)
  | number (digits : List Char) (isDecimal : isDecimalText digits = true)
  | literal (quote : Char) (isQuote : quote = '"' ∨ quote = '\x27') (s : String)
      (absent : quote ∉ s.toList)
  | call (function : CoreFunction) (arguments : List Accepted) (call : Expr)
      (call?_eq : function.call? (arguments.map Accepted.expr) = some call)

namespace Primary

/-- The text of a primary expression. -/
def text : Primary → List Char
  | group e => parenthesized e.text.toList
  | number digits _ => digits
  | literal quote _ s _ => quote :: (s.toList ++ [quote])
  | call function arguments _ _ =>
      function.spelling.toList ++ parenthesized (Parse.argumentText (arguments.map Accepted.part))

/-- What a primary expression stands for. -/
def expr : Primary → Expr
  | group e => e.expr
  | number digits _ => .number (.ofDecimalText false digits)
  | literal _ _ s _ => .literal s
  | call _ _ expr _ => expr

/-- The accepted texts in a primary expression. -/
def parts : Primary → List Accepted
  | group e => [e]
  | number _ _ | literal _ _ _ _ => []
  | call _ arguments _ _ => arguments

/-- A primary expression begins neither with white space nor with a minus sign. -/
theorem exists_text_eq_cons (p : Primary) :
    ∃ c others, p.text = c :: others ∧ Text.isSpace c = false ∧ c ≠ '-' := by
  cases p with
  | group e => exact ⟨'(', _, rfl, rfl, by decide⟩
  | number digits hDecimal =>
      simp only [isDecimalText, Bool.and_eq_true, List.any_eq_true] at hDecimal
      obtain ⟨⟨hEach, -⟩, d, hMem, -⟩ := hDecimal
      obtain ⟨c, others, rfl⟩ := List.exists_cons_of_ne_nil (List.ne_nil_of_mem hMem)
      refine ⟨c, others, rfl, ?_⟩
      have hFirst := List.all_eq_true.1 hEach c (List.mem_cons_self ..)
      rw [Bool.or_eq_true, beq_iff_eq] at hFirst
      rcases hFirst with hDigit | rfl
      · refine ⟨Parse.isSpace_of_isDigit hDigit, ?_⟩
        rintro rfl
        cases hDigit
      · exact ⟨rfl, by decide⟩
  | literal quote hQuote s hAbsent => rcases hQuote with rfl | rfl <;> exact ⟨_, _, rfl, rfl, by decide⟩
  | call function arguments expr hCall =>
      rcases function with f | f | f | f | _ | _ | _ <;> try cases f
      all_goals exact ⟨_, _, rfl, rfl, by decide⟩

end Primary

/-- A union operand as it is written.  A name alone is a path, also if it is spelled as an operator. -/
inductive Atom
  | path (form : PathForm Accepted)
  | filter (primary : Primary) (predicates : List Accepted) (steps : List (JoinedStep Accepted))

namespace Atom

open Parse (bracketed)

/-- The text of a union operand. -/
def text : Atom → List Char
  | path form => (form.map Accepted.part).text
  | filter primary predicates steps =>
      primary.text ++ (bracketed (predicates.map Accepted.part) ++
        joinedText (steps.map (JoinedStep.map Accepted.part)))

/-- What a union operand stands for. -/
def expr : Atom → Expr
  | path form => (form.map Accepted.part).expr
  | filter primary predicates steps =>
      Parse.filtered primary.expr (predicates.map Accepted.expr)
        (joinedSteps (steps.map (JoinedStep.map Accepted.part)))

/-- The accepted texts in a union operand. -/
def parts : Atom → List Accepted
  | path form => form.predicates
  | filter primary predicates steps => primary.parts ++ (predicates ++ joinedPredicates steps)

/-- Whether each one of the accepted texts is an expression with so many levels of nesting. -/
def Fits (levels : Nat) (a : Atom) : Prop :=
  ∀ e ∈ a.parts, FitsWithin levels e.text

/-- A union operand begins neither with white space nor with a minus sign. -/
theorem exists_text_eq_cons (a : Atom) :
    ∃ c others, a.text = c :: others ∧ Text.isSpace c = false ∧ c ≠ '-' := by
  cases a with
  | path form =>
      cases form with
      | relative first steps =>
          obtain ⟨c, others, hText, hSpace, -, hStart⟩ := (first.map Accepted.part).exists_text_eq_cons
          refine ⟨c, others ++ joinedText (steps.map (JoinedStep.map Accepted.part)), ?_, hSpace, ?_⟩
          · rw [text, PathForm.map, PathForm.text, hText, List.cons_append]
          · rintro rfl
            exact absurd (hStart []) (by decide)
      | absolute first steps =>
          obtain ⟨others, hText⟩ := (first.map Accepted.part).exists_text_append_eq
            (joinedText (steps.map (JoinedStep.map Accepted.part)))
          exact ⟨'/', others, hText, rfl, by decide⟩
  | filter primary predicates steps =>
      obtain ⟨c, others, hText, hSpace, hMinus⟩ := primary.exists_text_eq_cons
      refine ⟨c, others ++ (bracketed (predicates.map Accepted.part) ++
        joinedText (steps.map (JoinedStep.map Accepted.part))), ?_, hSpace, hMinus⟩
      rw [text, hText, List.cons_append]

end Atom

namespace Parse

section Primary

variable {nested : Reader Expr} {rest : List Char}

/-- A point begins a number where a digit follows it. -/
theorem pathExpr_point {c : Char} (hDigit : c.isDigit = true) (s : List Char) :
    pathExpr nested ('.' :: c :: s) = filterExpr nested ('.' :: c :: s) := by
  have hStart : startsPrimary ('.' :: c :: s) = true := by simp [startsPrimary, hDigit]
  rw [pathExpr, Text.skipSpace_cons_of_not_isSpace rfl]
  exact if_pos hStart

/-- The literal of a number is a primary expression. -/
theorem pathExpr_decimal (nested : Reader Expr) {digits : List Char} (h : isDecimalText digits = true)
    (rest : List Char) :
    pathExpr nested (digits ++ rest) = filterExpr nested (digits ++ rest) ∧
      primary nested (digits ++ rest) =
        .ok (.number (numberLiteral (digits ++ rest)).1, (numberLiteral (digits ++ rest)).2) := by
  obtain ⟨whole, fraction, hSpells⟩ := exists_spellsDecimal h
  -- It begins with a digit, or with a point and a digit.
  cases hSpells with
  | digits hSome hWhole =>
      obtain ⟨c, others, rfl⟩ := List.exists_cons_of_ne_nil hSome
      have hDigit := List.all_eq_true.1 hWhole c (List.mem_cons_self ..)
      exact ⟨pathExpr_digit hDigit _, primary_digit hDigit _⟩
  | point hSome hWhole hFraction =>
      cases whole with
      | nil =>
          obtain ⟨c, others, rfl⟩ := List.exists_cons_of_ne_nil (hSome.resolve_left (· rfl))
          have hDigit := List.all_eq_true.1 hFraction c (List.mem_cons_self ..)
          exact ⟨pathExpr_point hDigit _, rfl⟩
      | cons c others =>
          have hDigit := List.all_eq_true.1 hWhole c (List.mem_cons_self ..)
          exact ⟨pathExpr_digit hDigit _, primary_digit hDigit _⟩

/-- The literal of a number is taken off where no name could go on. -/
theorem numberLiteral_decimal {digits : List Char} (h : isDecimalText digits = true)
    (hEnd : EndsTest rest) :
    numberLiteral (digits ++ rest) = (.ofDecimalText false digits, rest) := by
  obtain ⟨whole, fraction, hSpells⟩ := exists_spellsDecimal h
  rw [hSpells.ofDecimalText_eq]
  cases hSpells with
  | digits hSome hWhole => exact numberLiteral_digits hWhole hEnd.any_isDigit_eq hEnd.head?_ne_point
  | point hSome hWhole hFraction =>
      rw [List.append_assoc, List.cons_append]
      exact numberLiteral_point hWhole hFraction hEnd.any_isDigit_eq

/-- What begins with a primary expression is one with predicates and steps. -/
theorem pathExpr_primary (p : Primary) (rest : List Char) :
    pathExpr nested (p.text ++ rest) = filterExpr nested (p.text ++ rest) := by
  cases p with
  | group e => rfl
  | number digits hDecimal => exact (pathExpr_decimal nested hDecimal rest).1
  | literal quote hQuote s hAbsent => rcases hQuote with rfl | rfl <;> rfl
  | call function arguments expr hCall =>
      rw [Primary.text, List.append_assoc]
      exact pathExpr_spelling function _

/-- A primary expression is taken off if what it holds is not too deeply nested. -/
theorem settles_primary (p : Primary) {levels : Nat} (hLevels : levels ≤ maxNesting)
    (hRest : EndsTest rest) :
    Settles (∀ e ∈ p.parts, FitsWithin levels e.text)
      (primary (expression levels) (p.text ++ rest)) (p.expr, rest) := by
  cases p with
  | group e =>
      have hOne : (∀ e' ∈ (Primary.group e).parts, FitsWithin levels e'.text) ↔
          FitsWithin levels e.text := List.forall_mem_singleton
      exact (settles_parenthesized (admits_accepted e hLevels) rest).congr hOne.symm
  | number digits hDecimal =>
      have hPrimary := (pathExpr_decimal (expression levels) hDecimal rest).2
      rw [numberLiteral_decimal hDecimal hRest] at hPrimary
      exact ⟨fun _ => hPrimary, fun hNot => absurd (List.forall_mem_nil _) hNot⟩
  | literal quote hQuote s hAbsent =>
      have hLiteral : textLiteral quote (s.toList ++ [quote] ++ rest) = .ok (s, rest) :=
        textLiteral_eq_ok_iff.2 ⟨List.append_assoc .., hAbsent⟩
      refine ⟨fun _ => ?_, fun hNot => absurd (List.forall_mem_nil _) hNot⟩
      rcases hQuote with rfl | rfl <;> exact bind_eq_ok hLiteral rfl
  | call function arguments expr hCall =>
      rw [← meanings_parts] at hCall
      have hOpens : ∀ part ∈ arguments.map Accepted.part, ∀ rest,
          (skipSpace (part.1 ++ rest)).head? ≠ some ')' :=
        List.forall_mem_map.2 fun e _ => opens_accepted e
      rw [Primary.text, parenthesized, List.append_assoc, List.cons_append, List.append_assoc,
        List.singleton_append, primary_spelling]
      exact (settles_functionCall hCall (takesOff_expression levels) (admitsAll_parts arguments hLevels)
        hOpens rest).congr (allFit_parts_iff arguments)

end Primary

section Atom

variable {rest : List Char} (a : Atom)

theorem endsTest_filtered (parts : List Part) (steps : List (JoinedStep Part)) (hRest : EndsTest rest)
    (hBracket : (skipSpace rest).head? ≠ some '[') :
    EndsTest (bracketed parts ++ (joinedText steps ++ rest)) :=
  endsTest_bracketed parts (endsTest_joinedText steps hRest hBracket).1

/-- A union operand is taken off where neither a name nor a call, a predicate or a step goes on. -/
theorem settles_atom {levels : Nat} (hLevels : levels ≤ maxNesting) (hRest : EndsTest rest)
    (hBracket : (skipSpace rest).head? ≠ some '[') (hSlash : (skipSpace rest).head? ≠ some '/') :
    Settles (a.Fits levels) (pathExpr (expression levels) (a.text ++ rest))
      (a.expr, skipSpace rest) := by
  have hKeeps := takesOff_expression levels
  cases a with
  | path form =>
      have hForms := form.predicates_map Accepted.part
      have hPath := settles_path (form.map Accepted.part) hKeeps
        (hForms ▸ admitsAll_parts _ hLevels) hRest hBracket hSlash
      rw [hForms] at hPath
      exact hPath.congr (allFit_parts_iff _)
  | filter p predicates steps =>
      have hForms : predicates.map Accepted.part ++
          joinedPredicates (steps.map (JoinedStep.map Accepted.part)) =
            (predicates ++ joinedPredicates steps).map Accepted.part := by
        rw [joinedPredicates_map, List.map_append]
      have hPrimary := settles_primary p hLevels (endsTest_filtered (predicates.map Accepted.part)
        (steps.map (JoinedStep.map Accepted.part)) hRest hBracket)
      have hFilter := settles_filterExpr hPrimary hKeeps (hForms ▸ admitsAll_parts _ hLevels) hRest
        hBracket hSlash
      rw [hForms, meanings_parts] at hFilter
      rw [Atom.text, List.append_assoc, List.append_assoc, pathExpr_primary]
      exact hFilter.congr ((and_congr_right' (allFit_parts_iff _)).trans List.forall_mem_append.symm)

/-- By itself, a union operand takes one level of nesting from the accepted texts in it. -/
theorem oneDeeper_atom {whole : String} (hText : whole.toList = a.text) :
    OneDeeper (a.Fits ·) whole a.expr := by
  refine oneDeeper_of_pathExpr fun levels hLevels => ?_
  rw [hText, ← List.append_nil a.text]
  exact settles_atom a (Nat.le_succ_of_le hLevels) (goesOn_nil testEnds).endsTest (by decide) (by decide)

end Atom

section Padding

variable (a : Atom) {whole : String} {before after : List Char}

theorem head?_skipSpace_of_all (h : after.all isSpace = true) (mark : Char) :
    (skipSpace after).head? ≠ some mark := by
  rw [Text.skipSpace_of_all h]
  rintro ⟨⟩

/-- Where nothing but white space follows, a node test may end. -/
theorem endsTest_of_all_isSpace (h : after.all isSpace = true) :
    EndsTest after := by
  have hEnds : GoesOn spaces after := fun c hHead =>
    mem_spaces_of_isSpace (List.all_eq_true.1 h c (List.mem_of_mem_head? hHead))
  exact ⟨hEnds.any_eq_false (by decide +kernel), head?_skipSpace_of_all h '(',
    head?_skipSpace_of_all h ':'⟩

/-- White space around a union operand makes no difference. -/
theorem settles_padded {levels : Nat} (hLevels : levels ≤ maxNesting) (hBefore : before.all isSpace = true)
    (hAfter : after.all isSpace = true) :
    Settles (a.Fits levels) (pathExpr (expression levels) (before ++ (a.text ++ after)))
      (a.expr, []) := by
  have hAtom := settles_atom a hLevels (endsTest_of_all_isSpace hAfter)
    (head?_skipSpace_of_all hAfter '[') (head?_skipSpace_of_all hAfter '/')
  rwa [Text.skipSpace_of_all hAfter, ← pathExpr_skipSpace, ← Text.skipSpace_append_of_all hBefore,
    pathExpr_skipSpace] at hAtom

theorem parsesIf_padded (hText : whole.toList = before ++ (a.text ++ after))
    (hBefore : before.all isSpace = true) (hAfter : after.all isSpace = true) :
    ParsesIf (a.Fits 63) whole a.expr := by
  have hEnd := goesOn_nil closers
  have hOperand := settles_padded a (by decide : 63 ≤ maxNesting) hBefore hAfter
  rw [← hText] at hOperand
  exact parsesIf_of_settles (settles_expression_of_unary (settles_unary_of_pathExpr hOperand hEnd) hEnd)

end Padding

end Parse

end CborPath
