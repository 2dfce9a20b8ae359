import CborPath.Proofs.Query.Depth
import CborPath.Proofs.Query.Precedence

/-!
# Nothing but nesting is limited

The limit counts what is open at the same time.  An expression that is read nests no deeper than it
allows; a number inside openers is read just when there are not too many of them, whatever their kinds;
and what stands side by side is limited by nothing but each of its parts.
-/

namespace CborPath

open Text (skipSpace)

/-- What opens a level of nesting. -/
inductive Opener
  | parenthesis
  | minus
  | call
  | predicate
  deriving DecidableEq, Repr

namespace Opener

/-- The text of an opener. -/
def text : Opener → List Char
  | parenthesis => ['(']
  | minus => ['-']
  | call => "boolean(".toList
  | predicate => ['a', '[']

/-- What closes the level. -/
def closing : Opener → List Char
  | parenthesis | call => [')']
  | minus => []
  | predicate => [']']

/-- What an opener makes of the expression inside. -/
def apply : Opener → Expr → Expr
  | parenthesis => id
  | minus => .negate
  | call => .unary .boolean
  | predicate => fun expr => .path false [.mk .child (.named "a") [expr]]

end Opener

/-- A text after openers and before what closes them, in reverse order. -/
def enclosed (openers : List Opener) (inner : List Char) : List Char :=
  openers.flatMap Opener.text ++ inner ++ openers.reverse.flatMap Opener.closing

theorem enclosed_cons (opener : Opener) (openers : List Opener) (inner : List Char) :
    enclosed (opener :: openers) inner = opener.text ++ (enclosed openers inner ++ opener.closing) := by
  simp [enclosed]

namespace Parse

section Openers

variable {text rest : List Char} {expr : Expr} {count : Nat}

/-- What a minus sign may stand before for so many levels more than it needs is an expression for one
level more than that. -/
theorem admits_of_settles_unary
    (h : ∀ levels rest, GoesOn closers rest →
      Settles (count ≤ levels) (unary levels (text ++ rest)) (expr, rest)) (levels : Nat) :
    Admits (expression levels) text expr ∧ (FitsIn (expression levels) text ↔ count < levels) := by
  cases levels with
  | zero =>
      have hNone : ¬FitsIn (expression 0) text := by
        rintro ⟨read, ⟨⟩⟩
      refine ⟨fun rest _ s _ => ?_, iff_of_false hNone (Nat.not_lt_zero count)⟩
      exact ⟨fun hFits => absurd hFits hNone, fun _ => ⟨_, rfl⟩⟩
  | succ levels =>
      have hExpression : ∀ rest, GoesOn closers rest →
          Settles (count < levels + 1) (expression (levels + 1) (text ++ rest)) (expr, rest) :=
        fun rest hRest =>
          (settles_expression_of_unary (h levels rest hRest) hRest).congr Nat.lt_succ_iff.symm
      have hFits : FitsIn (expression (levels + 1)) text ↔ count < levels + 1 := by
        have hOwn := hExpression [] (goesOn_nil closers)
        rw [List.append_nil] at hOwn
        exact hOwn.exists_ok_iff
      refine ⟨fun rest hRest s hText => ?_, hFits⟩
      rw [expression_congr levels hText]
      exact (hExpression rest hRest).congr hFits.symm

theorem head?_skipSpace_enclosed_ne (openers : List Opener) (rest : List Char) :
    (skipSpace (enclosed openers ['1'] ++ rest)).head? ≠ some ')' := by
  cases openers with
  | nil => exact head?_cons_ne (by decide) _
  | cons opener openers =>
      rw [enclosed_cons]
      cases opener <;> exact head?_cons_ne (by decide) _

/-- A primary expression stands for itself where neither a predicate nor a step follows. -/
theorem settles_primary_alone {nested : Reader Expr} {fits : Prop} {s : List Char}
    (h : Settles fits (primary nested s) (expr, rest)) (hRest : GoesOn closers rest) :
    Settles fits (filterExpr nested s) (expr, rest) := by
  refine ⟨fun hFits => ?_, fun hNot => (h.failure hNot).bind⟩
  rw [filterExpr_of_primary (h.result hFits) (head?_ne_bracket hRest.stepEnds) (head?_ne_slash hRest),
    skipSpace_of_closers hRest]

theorem settles_decimal (nested : Reader Expr) {digits : List Char} (h : isDecimalText digits = true)
    (hRest : GoesOn closers rest) :
    Settles True (pathExpr nested (digits ++ rest)) (.number (.ofDecimalText false digits), rest) := by
  have hEnd : EndsTest rest := (hRest.stepEnds.mono (List.subset_cons_self '[' stepEnds)).endsTest
  obtain ⟨hPath, hPrimary⟩ := pathExpr_decimal nested h rest
  rw [numberLiteral_decimal h hEnd] at hPrimary
  rw [hPath]
  exact settles_primary_alone ⟨fun _ => hPrimary, fun hNot => absurd trivial hNot⟩ hRest

/-- What is inside an opener other than a minus sign is a union operand with it. -/
theorem settles_opener {nested : Reader Expr} {fits : Prop} (hKeeps : TakesOff nested)
    (hAdmits : Admits nested text expr) (hFits : FitsIn nested text ↔ fits)
    (hOpens : ∀ rest, (skipSpace (text ++ rest)).head? ≠ some ')') {opener : Opener}
    (hMinus : opener ≠ .minus) (hRest : GoesOn closers rest) :
    Settles fits (pathExpr nested (opener.text ++ (text ++ (opener.closing ++ rest))))
      (opener.apply expr, rest) := by
  have hParts : AdmitsAll nested [(text, expr)] := List.forall_mem_singleton.2 hAdmits
  have hAll : AllFit nested [(text, expr)] ↔ fits := allFit_singleton_iff.trans hFits
  cases opener with
  | minus => exact absurd rfl hMinus
  | parenthesis =>
      have hPrimary := settles_parenthesized hAdmits rest
      rw [parenthesized, List.cons_append, List.append_assoc] at hPrimary
      exact (settles_primary_alone hPrimary hRest).congr hFits
  | call =>
      have hMeans : (CoreFunction.unary .boolean).call? (meanings [(text, expr)]) =
          some (.unary .boolean expr) := rfl
      have hCall := settles_functionCall hMeans hKeeps hParts (List.forall_mem_singleton.2 hOpens) rest
      rw [← primary_spelling] at hCall
      have hPath := settles_primary_alone hCall hRest
      rw [← pathExpr_spelling, argumentText_singleton] at hPath
      exact hPath.congr hAll
  | predicate =>
      have hName : NodeTest.isWritable (.named "a") = true := by decide
      have hEnd : EndsTest rest := (hRest.stepEnds.mono (List.subset_cons_self '[' stepEnds)).endsTest
      have hPath := settles_path (.relative (.select .omitted (.named "a") hName [(text, expr)]) [])
        hKeeps hParts hEnd (head?_ne_bracket hRest.stepEnds) (head?_ne_slash hRest)
      have hText : PathForm.text (.relative (.select .omitted (.named "a") hName [(text, expr)]) []) ++
          rest = 'a' :: '[' :: (text ++ ']' :: rest) := by
        simp [PathForm.text, StepForm.text, AxisMark.text, NodeTest.written, bracketed, joinedText]
      rw [hText, skipSpace_of_closers hRest] at hPath
      exact hPath.congr hAll

/-- Each opener takes one level. -/
theorem settles_unary_enclosed (openers : List Opener) :
    ∀ levels rest, GoesOn closers rest →
      Settles (openers.length ≤ levels) (unary levels (enclosed openers ['1'] ++ rest))
        (openers.foldr Opener.apply (.number (.ofDecimalText false ['1'])), rest) := by
  induction openers with
  | nil =>
      intro levels rest hRest
      have hDecimal : isDecimalText ['1'] = true := by decide
      have hNumber := settles_decimal (expression levels) hDecimal hRest
      exact settles_unary_of_pathExpr
        (hNumber.congr (iff_of_true trivial (Nat.zero_le levels))) hRest
  | cons opener openers ih =>
      intro levels rest hRest
      rw [enclosed_cons, List.append_assoc, List.append_assoc]
      by_cases hMinus : opener = .minus
      · subst hMinus
        rw [unary_eq]
        refine settles_negate ?_
        cases levels with
        | zero => exact ⟨fun hLess => absurd hLess (Nat.not_succ_le_zero _), fun _ => ⟨_, rfl⟩⟩
        | succ levels => exact (ih levels rest hRest).congr Nat.succ_le_succ_iff.symm
      · obtain ⟨hAdmits, hFits⟩ := admits_of_settles_unary ih levels
        exact settles_unary_of_pathExpr (settles_opener (takesOff_expression levels) hAdmits hFits
          (head?_skipSpace_enclosed_ne openers) hMinus hRest) hRest

end Openers

end Parse

open Parse

/-- The limit counts nothing but nesting, and counts it exactly.  No way down from an expression that is
read counts more than 63 minus signs, predicates and arguments.  A number inside openers is read just
when there are at most 63 of them.  Operands side by side, with predicates, steps and arguments side by
side in each, are read just when each accepted text among them fits into the levels that the minus signs
before it leave, however many there are. -/
theorem parse_nesting (e : Accepted) (openers : List Opener) (c : OperatorChain) :
    (∀ count part, e.expr.Descends count part → count ≤ 63) ∧
    ParsesIf (openers.length ≤ 63) (String.ofList (enclosed openers ['1']))
      (openers.foldr Opener.apply (.number (.ofDecimalText false ['1']))) ∧
    ∃ expr, OneDeeper (c.Fits ·) (String.ofList c.text) expr := by
  refine ⟨fun count part hWay => ?_, parsesIf_of_settles ?_, ?_⟩
  · exact Nat.le_of_lt_succ ((built_of_parse_eq_ok e.parse_eq).nestsBelow count part hWay)
  · have hEnd := goesOn_nil closers
    have hSettles := settles_expression_of_unary (settles_unary_enclosed openers 63 [] hEnd) hEnd
    rw [List.append_nil] at hSettles
    rw [String.toList_ofList]
    exact hSettles
  · obtain ⟨expr, -, hDeeper⟩ := oneDeeper_operatorChain c
    exact ⟨expr, hDeeper⟩

/-- A way down that counts two, and openers as many as are allowed and one more. -/
theorem parse_nesting_limit :
    (∃ e : Accepted, e.text = "-a[b]" ∧ (∃ part, e.expr.Descends 2 part) ∧ 2 ≤ 63) ∧
    parse (String.ofList (enclosed (List.replicate 63 .minus) ['1'])) =
      .ok ((List.replicate 63 Opener.minus).foldr Opener.apply (.number (.ofDecimalText false ['1']))) ∧
    ∃ position, parse (String.ofList (enclosed (List.replicate 64 .predicate) ['1'])) =
      .error ⟨.nestedTooDeeply, position⟩ := by
  let inner : Expr := .path false [.mk .child (.named "b") []]
  let e : Accepted := ⟨"-a[b]", .negate (.path false [.mk .child (.named "a") [inner]]), rfl⟩
  let c : OperatorChain := ⟨⟨0, .filter (.group e) [] []⟩, []⟩
  have hWay : e.expr.Descends 2 inner :=
    .nested (List.mem_singleton_self _) (.nested (List.mem_singleton_self _) (.here _))
  exact ⟨⟨e, rfl, ⟨_, hWay⟩, (parse_nesting e [] c).1 2 _ hWay⟩,
    (parse_nesting e (List.replicate 63 .minus) c).2.1.result (by decide),
    (parse_nesting e (List.replicate 64 .predicate) c).2.1.failure (by decide)⟩

end CborPath
