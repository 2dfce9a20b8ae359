import CborPath.Proofs.Outcome
import CborPath.Query.Parse

/-!
# What readers leave

Readers only ever take something off the start of a text: what they leave is an end of it, and a fault
shows at an end of it too.  So every round of a loop shortens the text, and the loop's bound is never
reached.
-/

namespace CborPath

open Text (skipSpace)

namespace Parse

/-- Whether an outcome keeps to a text: what is left over is an end of the text, and so is the place
of a fault. -/
structure KeepsTo {α : Type} (s : List Char) (outcome : Except Fault (α × List Char)) : Prop where
  rest : Yields outcome fun read => read.2 <:+ s
  place : FailsWith outcome fun fault => fault.rest <:+ s

section KeepsTo

variable {α β : Type} {s longer rest : List Char} {outcome : Except Fault (α × List Char)}

theorem keepsTo_ok (x : α) (h : rest <:+ s) :
    KeepsTo s (.ok (x, rest)) :=
  ⟨yields_ok h, failsWith_ok _⟩

theorem keepsTo_error (cause : ParseCause) (h : rest <:+ s) :
    KeepsTo s (.error ⟨cause, rest⟩ : Except Fault (α × List Char)) := by
  refine ⟨yields_error _, ?_⟩
  rintro _ ⟨⟩
  exact h

theorem KeepsTo.mono (h : KeepsTo s outcome) (hLonger : s <:+ longer) :
    KeepsTo longer outcome :=
  ⟨h.rest.mono fun _ hRest => hRest.trans hLonger, h.place.mono fun _ hPlace => hPlace.trans hLonger⟩

theorem KeepsTo.bind {next : α × List Char → Except Fault (β × List Char)} (h : KeepsTo s outcome)
    (hNext : ∀ x rest, rest <:+ s → KeepsTo s (next (x, rest))) :
    KeepsTo s (outcome >>= next) := by
  cases outcome with
  | error fault =>
      refine ⟨yields_error _, ?_⟩
      rintro _ ⟨⟩
      exact h.place fault rfl
  | ok read => exact hNext read.1 read.2 (h.rest read rfl)

theorem skipSpace_suffix (s : List Char) :
    skipSpace s <:+ s :=
  List.dropWhile_suffix _

/-- What comes after a character is an end of the text. -/
theorem suffix_of_skipSpace_eq_cons {c : Char} (h : skipSpace s = c :: rest) :
    rest <:+ s :=
  (List.suffix_cons c rest).trans (h ▸ skipSpace_suffix s)

theorem keepsTo_expect_bind {c : Char} {next : List Char → Except Fault (β × List Char)}
    (hSuffix : rest <:+ s) (hNext : ∀ others, others <:+ rest → KeepsTo s (next others)) :
    KeepsTo s (expect c rest >>= next) := by
  have hSkip := skipSpace_suffix rest
  rw [expect]
  split
  · exact keepsTo_error _ List.nil_suffix
  · rename_i d others hStart
    split
    · exact hNext others (suffix_of_skipSpace_eq_cons hStart)
    · exact keepsTo_error _ (hStart ▸ hSkip.trans hSuffix)

end KeepsTo

section Lexeme

theorem keepsTo_name (s : List Char) :
    KeepsTo s (name s) := by
  unfold name
  split
  · exact keepsTo_error _ List.suffix_rfl
  · split
    · exact keepsTo_ok _ ((List.dropWhile_suffix _).trans (List.suffix_cons _ _))
    · exact keepsTo_error _ List.suffix_rfl

/-- A text literal keeps to the text with its opening quote. -/
theorem keepsTo_textLiteral (quote : Char) (body : List Char) :
    KeepsTo (quote :: body) (textLiteral quote body) := by
  have hDrop := (List.dropWhile_suffix (· != quote) (l := body)).trans (List.suffix_cons quote body)
  unfold textLiteral
  split
  · exact keepsTo_error _ List.suffix_rfl
  · rename_i c rest hStart
    rw [hStart] at hDrop
    exact keepsTo_ok _ ((List.suffix_cons c rest).trans hDrop)

theorem numberLiteral_suffix (s : List Char) :
    (numberLiteral s).2 <:+ s := by
  have hDrop := List.dropWhile_suffix Char.isDigit (l := s)
  unfold numberLiteral
  dsimp only
  split
  · rename_i rest hPoint
    rw [hPoint] at hDrop
    exact (List.dropWhile_suffix _).trans ((List.suffix_cons _ _).trans hDrop)
  · exact hDrop

theorem keepsTo_axis (s : List Char) :
    KeepsTo s (axis s) := by
  unfold axis
  split
  · exact keepsTo_ok _ (List.suffix_cons _ _)
  · split
    · exact keepsTo_ok _ List.suffix_rfl
    · rename_i word rest hName
      have hRest : rest <:+ s := (keepsTo_name s).rest _ hName
      split
      · rename_i inner hColons
        have hInner := (List.suffix_cons ':' inner).trans (suffix_of_skipSpace_eq_cons hColons)
        split
        · exact keepsTo_ok _ (hInner.trans hRest)
        · exact keepsTo_error _ List.suffix_rfl
      · exact keepsTo_ok _ List.suffix_rfl

theorem keepsTo_nodeTest (s : List Char) :
    KeepsTo s (nodeTest s) := by
  have hSkip := skipSpace_suffix s
  unfold nodeTest
  split
  · rename_i rest hStar
    exact keepsTo_ok _ (suffix_of_skipSpace_eq_cons hStar)
  · refine ((keepsTo_name _).mono hSkip).bind fun word rest hRest => ?_
    dsimp only
    split
    · exact keepsTo_error _ hRest
    · split
      · rename_i inner hCall
        have hInner := (suffix_of_skipSpace_eq_cons hCall).trans hRest
        split
        · exact keepsTo_error _ hSkip
        · exact keepsTo_expect_bind hInner fun others hOthers =>
            keepsTo_ok _ (hOthers.trans hInner)
      · exact keepsTo_ok _ hRest

end Lexeme

section Nested

/-- Whether a reader keeps to every text. -/
def TakesOff {α : Type} (reader : Reader α) : Prop :=
  ∀ s, KeepsTo s (reader s)

variable {nested : Reader Expr} (h : TakesOff nested)
include h

theorem keepsTo_predicatesWithin (bound : Nat) :
    TakesOff (predicatesWithin nested bound) := by
  induction bound with
  | zero => exact fun s => keepsTo_ok _ List.suffix_rfl
  | succ bound ih =>
      intro s
      rw [predicatesWithin]
      split
      · rename_i inner hBracket
        have hInner := suffix_of_skipSpace_eq_cons hBracket
        refine ((h inner).mono hInner).bind fun predicate rest hRest => ?_
        refine keepsTo_expect_bind hRest fun next hNext => ?_
        refine ((ih next).mono (hNext.trans hRest)).bind fun others rest hRest => ?_
        exact keepsTo_ok _ hRest
      · exact keepsTo_ok _ (skipSpace_suffix s)

theorem takesOff_predicates : TakesOff (predicates nested) :=
  fun s => keepsTo_predicatesWithin h _ s

theorem takesOff_step : TakesOff (step nested) := by
  intro s
  have hSkip := skipSpace_suffix s
  rw [step]
  split
  · rename_i rest hPoints
    exact keepsTo_ok _ ((List.suffix_cons _ _).trans (suffix_of_skipSpace_eq_cons hPoints))
  · rename_i rest hPoint
    exact keepsTo_ok _ (suffix_of_skipSpace_eq_cons hPoint)
  · refine ((keepsTo_axis _).mono hSkip).bind fun axis rest hRest => ?_
    refine ((keepsTo_nodeTest _).mono hRest).bind fun test rest hRest => ?_
    refine ((takesOff_predicates h _).mono hRest).bind fun predicates rest hRest => ?_
    exact keepsTo_ok _ hRest

theorem keepsTo_pathTailWithin (bound : Nat) :
    TakesOff (pathTailWithin nested bound) := by
  induction bound with
  | zero => exact fun s => keepsTo_ok _ List.suffix_rfl
  | succ bound ih =>
      -- The two kinds of slashes differ only in the steps that they put before the rest.
      have hSteps : ∀ (join : Step → List Step → List Step) {s inner : List Char}, inner <:+ s →
          KeepsTo s (step nested inner >>= fun next =>
            pathTailWithin nested bound next.2 >>= fun others =>
              .ok (join next.1 others.1, others.2)) := by
        intro join s inner hInner
        refine ((takesOff_step h inner).mono hInner).bind fun next rest hRest => ?_
        exact ((ih rest).mono hRest).bind fun others rest hRest => keepsTo_ok _ hRest
      intro s
      rw [pathTailWithin]
      split
      · rename_i inner hSlashes
        exact hSteps (fun next others => .descendantOrSelf :: next :: others)
          ((List.suffix_cons _ _).trans (suffix_of_skipSpace_eq_cons hSlashes))
      · rename_i inner hSlash
        exact hSteps (fun next others => next :: others) (suffix_of_skipSpace_eq_cons hSlash)
      · exact keepsTo_ok _ (skipSpace_suffix s)

theorem takesOff_pathTail : TakesOff (pathTail nested) :=
  fun s => keepsTo_pathTailWithin h _ s

theorem takesOff_relativePath : TakesOff (relativePath nested) := by
  intro s
  refine (takesOff_step h s).bind fun first rest hRest => ?_
  refine ((takesOff_pathTail h rest).mono hRest).bind fun others rest hRest => ?_
  exact keepsTo_ok _ hRest

theorem takesOff_locationPath : TakesOff (locationPath nested) := by
  have hPath := takesOff_relativePath h
  intro s
  rw [locationPath.eq_def]
  split
  · rename_i rest
    exact ((hPath rest).mono ((List.suffix_cons _ _).trans (List.suffix_cons _ _))).bind
      fun steps rest hRest => keepsTo_ok _ hRest
  · rename_i rest _
    have hInner := (skipSpace_suffix rest).trans (List.suffix_cons '/' rest)
    split
    · exact ((hPath _).mono hInner).bind fun steps rest hRest => keepsTo_ok _ hRest
    · exact keepsTo_ok _ hInner
  · exact (hPath s).bind fun steps rest hRest => keepsTo_ok _ hRest

theorem keepsTo_argumentsWithin (bound : Nat) :
    TakesOff (argumentsWithin nested bound) := by
  induction bound with
  | zero => exact fun s => keepsTo_ok _ List.suffix_rfl
  | succ bound ih =>
      intro s
      rw [argumentsWithin]
      refine (h s).bind fun argument rest hRest => ?_
      dsimp only
      split
      · rename_i inner hComma
        have hInner := (suffix_of_skipSpace_eq_cons hComma).trans hRest
        exact ((ih inner).mono hInner).bind fun others rest hRest => keepsTo_ok _ hRest
      · exact keepsTo_ok _ ((skipSpace_suffix rest).trans hRest)

theorem takesOff_arguments : TakesOff (arguments nested) := by
  intro s
  rw [arguments]
  split
  · rename_i rest hClose
    exact keepsTo_ok _ (suffix_of_skipSpace_eq_cons hClose)
  · refine ((keepsTo_argumentsWithin h _ _).mono (skipSpace_suffix s)).bind fun arguments rest hRest => ?_
    exact keepsTo_expect_bind hRest fun others hOthers => keepsTo_ok _ (hOthers.trans hRest)

theorem takesOff_functionCall : TakesOff (functionCall nested) := by
  intro s
  refine (keepsTo_name s).bind fun word rest hRest => ?_
  refine keepsTo_expect_bind hRest fun inner hInner => ?_
  refine ((takesOff_arguments h inner).mono (hInner.trans hRest)).bind fun arguments rest hRest => ?_
  dsimp only
  split
  · exact keepsTo_ok _ hRest
  · exact keepsTo_error _ List.suffix_rfl

theorem takesOff_primary : TakesOff (primary nested) := by
  intro s
  rw [primary.eq_def]
  split
  · rename_i rest
    refine ((h rest).mono (List.suffix_cons '(' rest)).bind fun inner rest hRest => ?_
    exact keepsTo_expect_bind hRest fun others hOthers => keepsTo_ok _ (hOthers.trans hRest)
  · exact keepsTo_error _ List.suffix_rfl
  · split
    · rename_i c hHead
      obtain ⟨rest, rfl⟩ : ∃ rest, s = c :: rest := by
        cases s with
        | nil => cases hHead
        | cons d rest =>
            cases hHead
            exact ⟨rest, rfl⟩
      split
      · exact (keepsTo_textLiteral c rest).bind fun literal rest hRest => keepsTo_ok _ hRest
      · split
        · exact keepsTo_ok _ (numberLiteral_suffix _)
        · exact takesOff_functionCall h _
    · exact takesOff_functionCall h s

theorem takesOff_filterExpr : TakesOff (filterExpr nested) := by
  intro s
  refine (takesOff_primary h s).bind fun first rest hRest => ?_
  refine ((takesOff_predicates h rest).mono hRest).bind fun predicates rest hRest => ?_
  refine ((takesOff_pathTail h rest).mono hRest).bind fun steps rest hRest => ?_
  dsimp only
  split <;> exact keepsTo_ok _ hRest

theorem takesOff_pathExpr : TakesOff (pathExpr nested) := by
  intro s
  have hSkip := skipSpace_suffix s
  rw [pathExpr]
  split
  · exact keepsTo_error _ List.nil_suffix
  · rename_i c rest hStart
    rw [hStart] at hSkip
    split
    · exact (takesOff_filterExpr h _).mono hSkip
    · split
      · exact (takesOff_locationPath h _).mono hSkip
      · exact keepsTo_error _ hSkip

end Nested

section Levels

/-- Whether a reader of operators takes off at least one character. -/
def Shortens (operator? : OperatorReader) : Prop :=
  ∀ s operator rest, operator? s = some (operator, rest) → rest <:+ s ∧ rest.length < s.length

theorem shortens_keyword (word : List Char) (hWord : word ≠ []) (operator : Operator) :
    Shortens fun s => (keyword? word s).map (operator, ·) := by
  intro s _ rest hRead
  obtain ⟨_, hKeyword, hEq⟩ := Option.map_eq_some_iff.1 hRead
  cases hEq
  obtain ⟨rfl, -⟩ := keyword?_eq_some_iff.1 hKeyword
  have hPos := List.length_pos_iff.2 hWord
  rw [List.length_append]
  exact ⟨List.suffix_append word rest, by omega⟩

theorem suffix_cons_and_length_lt (c : Char) (rest : List Char) :
    rest <:+ c :: rest ∧ rest.length < (c :: rest).length :=
  ⟨List.suffix_cons c rest, Nat.lt_succ_self _⟩

theorem suffix_cons_cons_and_length_lt (c d : Char) (rest : List Char) :
    rest <:+ c :: d :: rest ∧ rest.length < (c :: d :: rest).length :=
  ⟨(List.suffix_cons d rest).trans (List.suffix_cons c _), by simp only [List.length_cons]; omega⟩

theorem shortens_orOperator : Shortens orOperator? :=
  shortens_keyword ['o', 'r'] (List.cons_ne_nil _ _) .or

theorem shortens_andOperator : Shortens andOperator? :=
  shortens_keyword ['a', 'n', 'd'] (List.cons_ne_nil _ _) .and

theorem shortens_equalityOperator : Shortens equalityOperator? := by
  intro s operator rest hRead
  unfold equalityOperator? at hRead
  split at hRead <;> cases hRead
  · exact suffix_cons_cons_and_length_lt _ _ _
  · exact suffix_cons_and_length_lt _ _

theorem shortens_relationalOperator : Shortens relationalOperator? := by
  intro s operator rest hRead
  unfold relationalOperator? at hRead
  split at hRead <;> cases hRead
  · exact suffix_cons_cons_and_length_lt _ _ _
  · exact suffix_cons_cons_and_length_lt _ _ _
  · exact suffix_cons_and_length_lt _ _
  · exact suffix_cons_and_length_lt _ _

theorem shortens_additiveOperator : Shortens additiveOperator? := by
  intro s operator rest hRead
  unfold additiveOperator? at hRead
  split at hRead <;> cases hRead
  · exact suffix_cons_and_length_lt _ _
  · exact suffix_cons_and_length_lt _ _

theorem shortens_multiplicativeOperator : Shortens multiplicativeOperator? := by
  intro s operator rest hRead
  unfold multiplicativeOperator? at hRead
  split at hRead
  · cases hRead
    exact suffix_cons_and_length_lt _ _
  · split at hRead
    · rename_i hDivide
      cases hRead
      exact shortens_keyword ['d', 'i', 'v'] (List.cons_ne_nil _ _) (.arithmetic .divide) s _ _
        (Option.map_eq_some_iff.2 ⟨_, hDivide, rfl⟩)
    · exact shortens_keyword ['m', 'o', 'd'] (List.cons_ne_nil _ _) (.arithmetic .modulo) s _ _ hRead

theorem shortens_unionOperator : Shortens unionOperator? := by
  intro s operator rest hRead
  unfold unionOperator? at hRead
  split at hRead <;> cases hRead
  exact suffix_cons_and_length_lt _ _

variable {operator? : OperatorReader} {operand nested : Reader Expr}

theorem takesOff_chain (hOperator : Shortens operator?) (h : TakesOff operand) :
    TakesOff (chain operator? operand) := by
  have hWithin : ∀ bound left, TakesOff (chainWithin operator? operand bound left) := by
    intro bound
    induction bound with
    | zero => exact fun left s => keepsTo_ok _ List.suffix_rfl
    | succ bound ih =>
        intro left s
        have hSkip := skipSpace_suffix s
        rw [chainWithin]
        split
        · exact keepsTo_ok _ hSkip
        · rename_i operator rest hRead
          have hRest := (hOperator _ _ _ hRead).1.trans hSkip
          exact ((h rest).mono hRest).bind fun right rest hRest => (ih _ rest).mono hRest
  intro s
  exact (h s).bind fun first rest hRest => (hWithin _ first rest).mono hRest

theorem takesOff_binaryLevels (h : TakesOff operand) :
    TakesOff (binaryLevels operand) :=
  takesOff_chain shortens_orOperator <| takesOff_chain shortens_andOperator <|
    takesOff_chain shortens_equalityOperator <| takesOff_chain shortens_relationalOperator <|
    takesOff_chain shortens_additiveOperator <| takesOff_chain shortens_multiplicativeOperator h

theorem takesOff_signed (hOperand : TakesOff operand) (hNested : TakesOff nested) :
    TakesOff (signed operand nested) := by
  intro s
  have hSkip := skipSpace_suffix s
  rw [signed]
  split
  · rename_i rest hMinus
    have hRest := suffix_of_skipSpace_eq_cons hMinus
    exact ((hOperand rest).mono hRest).bind fun inner rest hRest => keepsTo_ok _ hRest
  · exact (takesOff_chain shortens_unionOperator (takesOff_pathExpr hNested) _).mono hSkip

theorem takesOff_tooDeep : TakesOff tooDeep :=
  fun s => keepsTo_error _ (List.suffix_refl s)

theorem takesOff_unary (levels : Nat) : TakesOff (unary levels) := by
  induction levels with
  | zero => exact takesOff_signed takesOff_tooDeep takesOff_tooDeep
  | succ levels ih => exact takesOff_signed ih (takesOff_binaryLevels ih)

theorem takesOff_expression (levels : Nat) : TakesOff (expression levels) := by
  cases levels with
  | zero => exact takesOff_tooDeep
  | succ levels => exact takesOff_binaryLevels (takesOff_unary levels)

end Levels

end Parse

end CborPath
