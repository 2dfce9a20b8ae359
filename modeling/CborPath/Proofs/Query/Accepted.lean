import CborPath.Proofs.Query.Steps

/-!
# Accepted texts

A text that is accepted as an expression is read as the same expression wherever it is put, as far as the
levels of nesting that are left there are enough for it.
-/

namespace CborPath

open Text (skipSpace)

/-- Whether a text is an expression with so many levels of nesting. -/
def FitsWithin (levels : Nat) (text : String) : Prop :=
  Parse.FitsIn (Parse.expression levels) text.toList

/-- Whether a text is read as an expression under a condition, and nests too deeply otherwise. -/
structure ParsesIf (fits : Prop) (text : String) (expr : Expr) : Prop where
  result : fits → parse text = .ok expr
  failure : ¬fits → ∃ position, parse text = .error ⟨.nestedTooDeeply, position⟩

theorem ParsesIf.congr {fits more : Prop} {text : String} {expr : Expr} (h : ParsesIf fits text expr)
    (hIff : fits ↔ more) :
    ParsesIf more text expr :=
  ⟨fun hFits => h.result (hIff.2 hFits), fun hNot => h.failure fun hFits => hNot (hIff.1 hFits)⟩

/-- Whether a text takes one level of nesting from what it holds: it is read as an expression just when
that fits into the levels that are left. -/
structure OneDeeper (fits : Nat → Prop) (text : String) (expr : Expr) : Prop where
  parses : ParsesIf (fits 63) text expr
  fitsWithin_iff : ∀ levels ≤ 63, FitsWithin (levels + 1) text ↔ fits levels

/-- A text that is an expression, with the expression. -/
structure Accepted where
  text : String
  expr : Expr
  parse_eq : parse text = .ok expr

/-- An accepted text as a part. -/
def Accepted.part (e : Accepted) : Parse.Part :=
  (e.text.toList, e.expr)

namespace Parse

section Levels

variable {operand nested : Reader Expr} {operator? : OperatorReader} {fits more : Prop}
  {s rest next last : List Char} {expr left right : Expr} {operator : Operator}

/-- The reader of what a minus sign stands before. -/
def signedOperand : Nat → Reader Expr
  | 0 => tooDeep
  | levels + 1 => unary levels

theorem unary_eq (levels : Nat) :
    unary levels = signed (signedOperand levels) (expression levels) := by
  cases levels <;> rfl

theorem signed_skipSpace (s : List Char) :
    signed operand nested (skipSpace s) = signed operand nested s := by
  rw [signed, signed, Text.skipSpace_skipSpace]

theorem foldr_chain_congr {t : List Char} (h : operand s = operand t) (readers : List OperatorReader) :
    readers.foldr chain operand s = readers.foldr chain operand t := by
  induction readers with
  | nil => exact h
  | cons reader others ih =>
      rw [List.foldr_cons, chain_eq, chain_eq, ih]

/-- White space before an expression makes no difference. -/
theorem expression_congr {t : List Char} (levels : Nat) (h : skipSpace s = skipSpace t) :
    expression (levels + 1) s = expression (levels + 1) t := by
  refine foldr_chain_congr ?_ operatorReaders
  rw [unary_eq, ← signed_skipSpace s, ← signed_skipSpace t, h]

theorem settles_signed (h : Settles fits (pathExpr nested s) (expr, rest))
    (hSkip : skipSpace rest = rest) (hRefused : unionOperator? rest = none) :
    Settles fits (signed operand nested s) (expr, rest) :=
  ⟨fun hFits => signed_of_pathExpr (h.result hFits) hSkip hRefused,
    fun hNot => signed_failsDeep (h.failure hNot)⟩

/-- A minus sign is settled by what it stands before. -/
theorem settles_negate (h : Settles fits (operand s) (expr, rest)) :
    Settles fits (signed operand nested ('-' :: s)) (.negate expr, rest) := by
  rw [signed_of_minus rfl]
  exact h.bind_ok rfl

theorem settles_foldr_chain {readers : List OperatorReader} (h : Settles fits (operand s) (expr, rest))
    (hSkip : skipSpace rest = rest) (hRefused : Refuse readers rest) :
    Settles fits (readers.foldr chain operand s) (expr, rest) :=
  ⟨fun hFits => foldr_chain_of_refused (h.result hFits) hSkip hRefused,
    fun hNot => foldr_chain_failsDeep (h.failure hNot) readers⟩

/-- Two operands are settled one after the other. -/
theorem settles_foldr_chain_pair (looser tighter : List OperatorReader)
    (hLeft : Settles fits (operand s) (left, rest)) (hSkip : skipSpace rest = rest)
    (hOperator : operator? rest = some (operator, next)) (hRest : rest ≠ [])
    (hTighter : Refuse tighter rest) (hRight : Settles more (operand next) (right, last))
    (hLastSkip : skipSpace last = last) (hRefused : Refuse (looser ++ operator? :: tighter) last) :
    Settles (fits ∧ more) ((looser ++ operator? :: tighter).foldr chain operand s)
      (operator.apply left right, last) := by
  refine ⟨fun hBoth => foldr_chain_pair (hLeft.result hBoth.1) hSkip hOperator hRest hTighter
    (hRight.result hBoth.2) hLastSkip hRefused, fun hNot => ?_⟩
  by_cases hFits : fits
  · have hDeep := hRight.failure fun hMore => hNot ⟨hFits, hMore⟩
    have hFirst := foldr_chain_of_refused (hLeft.result hFits) hSkip hTighter
    rw [List.foldr_append, List.foldr_cons]
    exact foldr_chain_failsDeep
      (chain_failsDeep hFirst hSkip hOperator (foldr_chain_failsDeep hDeep tighter)) looser
  · exact foldr_chain_failsDeep (hLeft.failure hFits) _

/-- Where an expression may end, one that is a union operand is all of it. -/
theorem settles_unary_of_pathExpr {levels : Nat}
    (h : Settles fits (pathExpr (expression levels) s) (expr, rest)) (hRest : GoesOn closers rest) :
    Settles fits (unary levels s) (expr, rest) := by
  rw [unary_eq]
  exact settles_signed h (skipSpace_of_closers hRest)
    (refuse_of_goesOn hRest unionOperator? (List.mem_cons_self ..))

theorem settles_expression_of_unary {levels : Nat} (h : Settles fits (unary levels s) (expr, rest))
    (hRest : GoesOn closers rest) :
    Settles fits (expression (levels + 1) s) (expr, rest) := by
  have hRefused : Refuse operatorReaders rest := fun reader hMem =>
    refuse_of_goesOn hRest reader (List.mem_cons_of_mem _ hMem)
  exact settles_foldr_chain h (skipSpace_of_closers hRest) hRefused

theorem parsesIf_of_settles {text : String}
    (h : Settles fits (expression maxNesting text.toList) (expr, [])) :
    ParsesIf fits text expr := by
  constructor
  · intro hFits
    have hWhole : whole text.toList = .ok expr := bind_eq_ok (h.result hFits) rfl
    rw [parse, hWhole]
  · intro hNot
    have hWhole : FailsDeep (whole text.toList) := (h.failure hNot).bind
    obtain ⟨place, hWhole⟩ := hWhole
    rw [parse, hWhole]
    exact ⟨_, rfl⟩

theorem oneDeeper_of_settles {fits : Nat → Prop} {text : String}
    (h : ∀ levels ≤ 63, Settles (fits levels) (expression (levels + 1) text.toList) (expr, [])) :
    OneDeeper fits text expr :=
  ⟨parsesIf_of_settles (h 63 (Nat.le_refl 63)), fun levels hLevels => (h levels hLevels).exists_ok_iff⟩

/-- What is read as a union operand is read as an expression. -/
theorem oneDeeper_of_pathExpr {fits : Nat → Prop} {text : String}
    (h : ∀ levels ≤ 63, Settles (fits levels) (pathExpr (expression levels) text.toList) (expr, [])) :
    OneDeeper fits text expr := by
  have hEnd := goesOn_nil closers
  exact oneDeeper_of_settles fun levels hLevels =>
    settles_expression_of_unary (settles_unary_of_pathExpr (h levels hLevels) hEnd) hEnd

end Levels

section Accepted

/-- An accepted text is taken off as a whole. -/
theorem expression_of_parse {text : String} {expr : Expr} (h : parse text = .ok expr) :
    expression maxNesting text.toList = .ok (expr, []) := by
  rw [parse] at h
  split at h
  · rename_i found hWhole
    cases h
    obtain ⟨⟨read, rest⟩, hRead, hEnd⟩ := bind_eq_ok_iff.1 hWhole
    have hOperand : TakesOff (operatorReaders.tail.foldr chain (unary 63)) :=
      takesOff_foldr_chain (fun reader hMem =>
        (shortens_and_steady reader (List.mem_of_mem_tail hMem)).1) (takesOff_unary 63)
    have hSkip : skipSpace rest = rest := yields_chain shortens_orOperator hOperand _ _ hRead
    dsimp only at hEnd
    rw [hSkip] at hEnd
    split at hEnd
    · cases hEnd
      exact hRead
    · cases hEnd
  · cases h

variable (e : Accepted)

/-- An accepted text is taken off wherever it is put, if the levels of nesting are enough. -/
theorem admits_accepted {levels : Nat} (hLevels : levels ≤ maxNesting) :
    Admits (expression levels) e.text.toList e.expr := by
  intro rest hRest s hText
  cases levels with
  | zero =>
      refine ⟨?_, fun _ => ⟨_, rfl⟩⟩
      rintro ⟨read, ⟨⟩⟩
  | succ levels =>
      rw [expression_congr levels hText]
      have hWhole := expression_of_parse e.parse_eq
      rcases (tracks_expression hLevels).reads_or_overflows hWhole with hReads | hDeep
      · refine ⟨fun _ => hReads rest hRest, fun hNot => absurd ?_ hNot⟩
        have hOwn := hReads [] (goesOn_nil closers)
        rw [List.append_nil] at hOwn
        exact ⟨_, hOwn⟩
      · refine ⟨?_, fun _ => hDeep rest hRest⟩
        rintro ⟨read, hOwn⟩
        obtain ⟨place, hFails⟩ := hDeep [] (goesOn_nil closers)
        rw [List.append_nil, hOwn] at hFails
        cases hFails

/-- An accepted text begins neither with a closing parenthesis nor with nothing. -/
theorem opens_accepted (rest : List Char) :
    (skipSpace (e.text.toList ++ rest)).head? ≠ some ')' := by
  have hRead := expression_of_parse e.parse_eq
  have hStart := (Text.skipSpace_skipSpace e.text.toList).symm
  rw [maxNesting, expression_congr 63 hStart] at hRead
  cases hText : skipSpace e.text.toList with
  | nil =>
      rw [hText] at hRead
      cases hRead
  | cons c inner =>
      rw [hText] at hRead
      intro hClose
      have hStart : skipSpace (e.text.toList ++ rest) = c :: (inner ++ rest) := by
        have hDrop : (e.text.toList ++ rest).dropWhile Text.isSpace = _ := List.dropWhile_append
        rw [← skipSpace, ← skipSpace, hText] at hDrop
        exact hDrop
      rw [hStart] at hClose
      obtain rfl := Option.some.inj hClose
      cases hRead

section Parts

variable (es : List Accepted) {levels : Nat}

theorem admitsAll_parts (hLevels : levels ≤ maxNesting) :
    AdmitsAll (expression levels) (es.map Accepted.part) :=
  List.forall_mem_map.2 fun e _ => admits_accepted e hLevels

theorem allFit_parts_iff :
    AllFit (expression levels) (es.map Accepted.part) ↔ ∀ e ∈ es, FitsWithin levels e.text :=
  List.forall_mem_map

theorem meanings_parts :
    meanings (es.map Accepted.part) = es.map Accepted.expr := by
  rw [meanings, List.map_map]
  rfl

end Parts

end Accepted

end Parse

end CborPath
