import CborPath.Proofs.Number.ExactValue
import CborPath.Proofs.Query.Embedding
import CborPath.Query.Eval

/-!
# Numerals in expressions

Two readers take decimals: that of expressions, for the literals, and that of texts, for the function
`number`.  They accept the same digits and points and make the same number of them, the correctly rounded
one; a minus sign in front is part of a text and an operator of an expression, and comes to the same.
-/

namespace CborPath

open Text (isSpace)

/-- The expression that a numeral stands for: the literal of a number, or with a sign the negation of the
literal of the opposite one. -/
def numeralExpr (negative : Bool) (n : Binary64) : Expr :=
  if negative then .negate (.number n.neg) else .number n

theorem eval_numeralExpr (negative : Bool) (n : Binary64) {P : Type} (nav : Navigator P)
    (context : Context P) :
    (numeralExpr negative n).eval nav context = .ok (.number n) := by
  cases negative with
  | true =>
      show Except.ok (Answer.number n.neg.neg) = _
      rw [Binary64.neg_neg]
  | false => rfl

section Numeral

variable {text : String} {negative : Bool} {whole fraction : List Char}

/-- A numeral is read as a literal, with a minus sign before it if it has one. -/
theorem parse_numeral (h : IsNumeral text.toList negative whole fraction) :
    parse text = .ok (numeralExpr negative (.ofText text)) := by
  rw [Binary64.ofText_of_isNumeral h]
  obtain ⟨before, decimal, after, hText, hBefore, hAfter, hDecimal⟩ := h
  let a : Atom := .filter (.number decimal hDecimal.isDecimalText) [] []
  have hLiteral : a.text = decimal := List.append_nil decimal
  have hExpr : a.expr = .number (.ofDecimal false whole fraction) :=
    congrArg Expr.number (hDecimal.ofDecimalText_eq false)
  have hFits : ∀ levels, a.Fits levels := fun _ => List.forall_mem_nil _
  rw [← hLiteral, List.append_assoc] at hText
  cases negative with
  | false =>
      rw [numeralExpr, if_neg Bool.false_ne_true, ← hExpr]
      exact (Parse.parsesIf_padded a hText hBefore hAfter).result (hFits 63)
  | true =>
      rw [numeralExpr, if_pos rfl, Binary64.neg_ofDecimal, Bool.not_true, ← hExpr]
      exact (Parse.parsesIf_negate_padded a hText hBefore hAfter).result (hFits 62)

theorem IsNumeral.isSpace_or_isDigit (h : IsNumeral text.toList negative whole fraction) {c : Char}
    (hMem : c ∈ text.toList) :
    isSpace c = true ∨ c = '-' ∨ c.isDigit = true ∨ c = '.' := by
  obtain ⟨before, decimal, after, hText, hBefore, hAfter, hDecimal⟩ := h
  rw [hText] at hMem
  simp only [List.mem_append] at hMem
  rcases hMem with (hIn | hIn | hIn) | hIn
  · exact .inl (List.all_eq_true.1 hBefore c hIn)
  · cases negative with
    | true => exact .inr (.inl (List.mem_singleton.1 hIn))
    | false => cases hIn
  · exact .inr (.inr (hDecimal.forall_mem hIn))
  · exact .inl (List.all_eq_true.1 hAfter c hIn)

/-- A numeral has no quotes in it. -/
theorem IsNumeral.quote_not_mem (h : IsNumeral text.toList negative whole fraction) :
    '\x27' ∉ text.toList := by
  intro hMem
  rcases h.isSpace_or_isDigit hMem with hSpace | hMinus | hDigit | hPoint
  · cases hSpace
  · cases hMinus
  · cases hDigit
  · cases hPoint

/-- In quotes, a text may be the argument of the function `number`. -/
theorem parse_numberCall (hAbsent : '\x27' ∉ text.toList) :
    parse ("number('" ++ text ++ "')") = .ok (.ofArgument .number (.literal text)) := by
  have hQuoted := Parse.oneDeeper_atom (.filter (.literal '\x27' (.inr rfl) text hAbsent) [] [])
    (show ("'" ++ text ++ "'").toList = _ by simp [Atom.text, Primary.text, Parse.bracketed, joinedText])
  have hFits : ∀ levels, Atom.Fits levels (.filter (.literal '\x27' (.inr rfl) text hAbsent) [] []) :=
    fun _ => List.forall_mem_nil _
  let argument : Accepted := ⟨"'" ++ text ++ "'", .literal text, hQuoted.parses.result (hFits 63)⟩
  refine (Parse.oneDeeper_atom (.filter (.call (.optional .number) [argument] _ rfl) [] []) ?_).parses.result
    (List.forall_mem_singleton.2 ((hQuoted.fitsWithin_iff 62 (by decide)).2 (hFits 62)))
  simp [argument, Atom.text, Primary.text, CoreFunction.spelling, NodeFunction.spelling,
    Parse.argumentText_singleton, Accepted.part, parenthesized, Parse.bracketed, joinedText]

end Numeral

/-- Numerals have one meaning.  A text denotes a number just when it is a numeral, and this is then the
correctly rounded value of its decimal, with its sign.  As an expression a numeral is the literal of that
number, or the literal of the opposite one with a minus sign before it; everywhere it has the value that
the function `number` finds in the text. -/
theorem numeral_meaning (text : String) :
    ((Binary64.ofText text).isNaN = false ↔
      ∃ negative whole fraction, IsNumeral text.toList negative whole fraction) ∧
    ∀ negative whole fraction, IsNumeral text.toList negative whole fraction →
      (∀ x, Binary64.IsNearest negative (Binary64.decimalValue whole fraction) x ↔
        x = Binary64.ofText text) ∧
      parse text = .ok (numeralExpr negative (Binary64.ofText text)) ∧
      ∃ call, parse ("number('" ++ text ++ "')") = .ok call ∧
        ∀ {P : Type} (nav : Navigator P) (context : Context P),
          (numeralExpr negative (Binary64.ofText text)).eval nav context =
            .ok (.number (Binary64.ofText text)) ∧
          call.eval nav context = .ok (.number (Binary64.ofText text)) := by
  refine ⟨⟨Binary64.exists_isNumeral, ?_⟩, fun negative whole fraction hNumeral => ⟨fun x => ?_,
    parse_numeral hNumeral, _, parse_numberCall hNumeral.quote_not_mem, fun nav context =>
      ⟨eval_numeralExpr negative _ nav context, rfl⟩⟩⟩
  · rintro ⟨negative, whole, fraction, hNumeral⟩
    rw [Binary64.ofText_of_isNumeral hNumeral, Binary64.isNaN_ofDecimal]
  · rw [Binary64.ofText_of_isNumeral hNumeral]
    exact Binary64.isNearest_decimalValue_iff

theorem numeral_meaning_fraction :
    IsNumeral " -.50".toList true [] ['5', '0'] ∧
      (∀ x, Binary64.IsNearest true (Binary64.decimalValue [] ['5', '0']) x ↔
        x = Binary64.ofText " -.50") ∧
      parse " -.50" = .ok (numeralExpr true (Binary64.ofText " -.50")) ∧
      ∃ call, parse ("number('" ++ " -.50" ++ "')") = .ok call ∧
        ∀ {P : Type} (nav : Navigator P) (context : Context P),
          (numeralExpr true (Binary64.ofText " -.50")).eval nav context =
            .ok (.number (Binary64.ofText " -.50")) ∧
          call.eval nav context = .ok (.number (Binary64.ofText " -.50")) := by
  have hDecimal : SpellsDecimal ([] ++ '.' :: ['5', '0']) [] ['5', '0'] :=
    .point (.inr (List.cons_ne_nil _ _)) rfl rfl
  have hNumeral : IsNumeral " -.50".toList true [] ['5', '0'] :=
    ⟨[' '], ['.', '5', '0'], [], rfl, rfl, rfl, hDecimal⟩
  exact ⟨hNumeral, (numeral_meaning " -.50").2 true [] ['5', '0'] hNumeral⟩

end CborPath
