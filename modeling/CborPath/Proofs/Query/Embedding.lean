import CborPath.Proofs.Query.Operands

/-!
# Embedded expressions

What stands in parentheses, in brackets or as an argument is read as by itself: an expression that is
accepted keeps its meaning wherever it is put.  The only thing that its surroundings take from it are
levels of nesting, and running out of these is the only way in which the whole can fail.
-/

namespace CborPath

open Text (isSpace skipSpace)

namespace Parse

section Operators

variable {whole : String} {before after : List Char} (a : Atom)

/-- A minus sign takes a level of its own from the operand that it stands before.  White space around
them makes no difference. -/
theorem parsesIf_negate_padded (hText : whole.toList = before ++ '-' :: (a.text ++ after))
    (hBefore : before.all isSpace = true) (hAfter : after.all isSpace = true) :
    ParsesIf (a.Fits 62) whole (.negate a.expr) := by
  have hEnd := goesOn_nil closers
  have hOperand : Settles (a.Fits 62) (pathExpr (expression 62) ([] ++ (a.text ++ after))) (a.expr, []) :=
    settles_padded a (by decide) rfl hAfter
  refine parsesIf_of_settles ?_
  rw [hText, maxNesting, expression_congr 63 (Text.skipSpace_append_of_all hBefore _)]
  refine settles_expression_of_unary ?_ hEnd
  rw [unary_eq]
  exact settles_negate (settles_unary_of_pathExpr hOperand hEnd)

theorem parsesIf_negate (hText : whole.toList = '-' :: a.text) :
    ParsesIf (a.Fits 62) whole (.negate a.expr) := by
  rw [← List.append_nil a.text, ← List.nil_append ('-' :: _)] at hText
  exact parsesIf_negate_padded a hText rfl rfl

theorem parsesIf_sum (b : Atom) (hText : whole.toList = a.text ++ '+' :: b.text) :
    ParsesIf (a.Fits 63 ∧ b.Fits 63) whole (.arithmetic .add a.expr b.expr) := by
  rw [← List.append_nil b.text] at hText
  have hPlus : ∀ {mark}, '+' ≠ mark → (skipSpace ('+' :: (b.text ++ []))).head? ≠ some mark :=
    fun hMark => head?_cons_ne hMark _
  have hLeftEnd : EndsTest ('+' :: (b.text ++ [])) := ⟨rfl, hPlus (by decide), hPlus (by decide)⟩
  have hLeft : Settles (a.Fits 63) (unary 63 whole.toList) (a.expr, '+' :: (b.text ++ [])) := by
    rw [hText, unary_eq]
    exact settles_signed
      (settles_atom a (by decide) hLeftEnd (hPlus (by decide)) (hPlus (by decide))) rfl rfl
  have hRight : Settles (b.Fits 63) (unary 63 (b.text ++ [])) (b.expr, []) :=
    settles_unary_of_pathExpr (settles_atom b (by decide) (goesOn_nil testEnds).endsTest (by decide)
      (by decide)) (goesOn_nil closers)
  have hOperator : ∀ next, additiveOperator? ('+' :: next) = some (.arithmetic .add, next) :=
    fun _ => rfl
  exact parsesIf_of_settles (settles_foldr_chain_pair
    [orOperator?, andOperator?, equalityOperator?, relationalOperator?] [multiplicativeOperator?]
    hLeft rfl (hOperator _) (List.cons_ne_nil _ _) (refuse_of_all rfl) hRight rfl
    (refuse_of_all rfl))

end Operators

section Groups

variable (e first second : Accepted) (levels : Nat)

/-- An accepted text in parentheses. -/
def groupAtom : Atom :=
  .filter (.group e) [] []

theorem groupAtom_text :
    (groupAtom e).text = parenthesized e.text.toList := by
  simp [groupAtom, Atom.text, Primary.text, bracketed, joinedText]

theorem fits_groupAtom_iff :
    (groupAtom e).Fits levels ↔ FitsWithin levels e.text :=
  List.forall_mem_singleton

end Groups

end Parse

open Parse

/-- Reading is compositional.  An accepted text is read as by itself in parentheses, as an argument,
behind a minus sign, as a predicate, and on either side of an operator: the whole is the expression that
its form makes of those of its parts.  It is accepted just when each part still is one with the levels
of nesting that are left to it, and otherwise refused for nesting too deeply. -/
theorem parse_embedded (e first second : Accepted) :
    ParsesIf (FitsWithin 63 e.text) ("(" ++ e.text ++ ")") e.expr ∧
    ParsesIf (FitsWithin 63 e.text) ("boolean(" ++ e.text ++ ")") (.unary .boolean e.expr) ∧
    ParsesIf (FitsWithin 62 e.text) ("-(" ++ e.text ++ ")") (.negate e.expr) ∧
    ParsesIf (FitsWithin 63 e.text) ("a[" ++ e.text ++ "]")
      (.path false [.mk .child (.named "a") [e.expr]]) ∧
    ParsesIf (FitsWithin 63 e.text ∧ FitsWithin 63 first.text)
      ("(" ++ e.text ++ ")[" ++ first.text ++ "]") (.filter e.expr [first.expr] []) ∧
    ParsesIf (FitsWithin 63 first.text ∧ FitsWithin 63 second.text)
      ("(" ++ first.text ++ ")+(" ++ second.text ++ ")")
      (.arithmetic .add first.expr second.expr) ∧
    ParsesIf (FitsWithin 63 first.text ∧ FitsWithin 63 second.text)
      ("concat(" ++ first.text ++ "," ++ second.text ++ ")")
      (.concat first.expr second.expr []) := by
  have hName : NodeTest.isWritable (.named "a") = true := by decide
  have hFits : ∀ {e e' : Accepted} {levels}, (∀ part ∈ [e, e'], FitsWithin levels part.text) ↔
      FitsWithin levels e.text ∧ FitsWithin levels e'.text :=
    List.forall_mem_cons.trans (and_congr_right' List.forall_mem_singleton)
  refine ⟨(oneDeeper_atom (groupAtom e) ?_).parses.congr (fits_groupAtom_iff e 63),
    (oneDeeper_atom (.filter (.call (.unary .boolean) [e] _ rfl) [] []) ?_).parses.congr
      List.forall_mem_singleton,
    (parsesIf_negate (groupAtom e) ?_).congr (fits_groupAtom_iff e 62),
    (oneDeeper_atom (.path (.relative (.select .omitted (.named "a") hName [e]) [])) ?_).parses.congr
      List.forall_mem_singleton,
    (oneDeeper_atom (.filter (.group e) [first] []) ?_).parses.congr hFits,
    (parsesIf_sum (groupAtom first) (groupAtom second) ?_).congr
      (and_congr (fits_groupAtom_iff first 63) (fits_groupAtom_iff second 63)),
    (oneDeeper_atom (.filter (.call .concat [first, second] _ rfl) [] []) ?_).parses.congr hFits⟩
  · simp [groupAtom_text, parenthesized]
  · simp [Atom.text, Primary.text, CoreFunction.spelling, UnaryFunction.spelling, argumentText_singleton,
      Accepted.part, parenthesized, bracketed, joinedText]
  · simp [groupAtom_text, parenthesized]
  · simp [Atom.text, PathForm.map, PathForm.text, StepForm.map, StepForm.text, AxisMark.text,
      NodeTest.written, Accepted.part, bracketed, joinedText]
  · simp [Atom.text, Primary.text, Accepted.part, parenthesized, bracketed, joinedText]
  · simp [groupAtom_text, parenthesized]
  · simp [Atom.text, Primary.text, CoreFunction.spelling, argumentText_cons_cons, argumentText_singleton,
      Accepted.part, parenthesized, bracketed, joinedText]

/-- A difference as the predicate of a step. -/
theorem parse_embedded_difference :
    parse ("a[" ++ "b - c" ++ "]") = .ok (.path false [.mk .child (.named "a") [.arithmetic .subtract
      (.path false [.mk .child (.named "b") []]) (.path false [.mk .child (.named "c") []])]]) := by
  let e : Accepted := ⟨"b - c", .arithmetic .subtract (.path false [.mk .child (.named "b") []])
    (.path false [.mk .child (.named "c") []]), rfl⟩
  have hFits : FitsWithin 63 "b - c" := ⟨(e.expr, []), by rfl⟩
  exact (parse_embedded e e e).2.2.2.1.result hFits

end CborPath
