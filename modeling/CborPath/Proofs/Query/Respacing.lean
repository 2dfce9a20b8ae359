import CborPath.Proofs.Query.Spacing

/-!
# Expressions spaced differently

White space between the parts of an expression, and around it, is immaterial.  Every reader of the grammar
takes the same off respaced texts, since it looks past white space wherever it looks for what comes
next, and otherwise at characters that stand together in both texts.  So does the whole.
-/

namespace CborPath

open Text (isSpace skipSpace)

namespace Parse

section Nested

variable {nested : Reader Expr} (h : IgnoresSpacing nested) (hKeeps : TakesOff nested)
include h hKeeps

theorem ignoresSpacing_predicates :
    IgnoresSpacing (predicates nested) := by
  intro s t hRespaced
  induction hLength : s.length using Nat.strong_induction_on generalizing s t with
  | _ length ih =>
      subst hLength
      by_cases hBracket : (skipSpace s).head? = some '['
      · obtain ⟨inner, hStart⟩ := List.head?_eq_some_iff.1 hBracket
        obtain ⟨inner', hStart', hInner⟩ := hRespaced.starts hStart rfl
        rw [predicates_of_bracket hKeeps hStart, predicates_of_bracket hKeeps hStart']
        refine (h hInner).bind fun predicate rest rest' hRead hRest => ?_
        refine carriesOver_expect_bind hRest rfl fun left left' hClose hLeft => ?_
        have hSuffix := (suffix_of_expect_eq_ok hClose).trans ((hKeeps inner).rest _ hRead)
        refine (ih _ (length_lt_of_skipSpace_eq_cons hStart hSuffix) hLeft rfl).bind ?_
        exact fun others rest rest' _ hRest => carriesOver_ok _ hRest
      · rw [predicates_of_head?_ne hBracket,
          predicates_of_head?_ne (hRespaced.head?_skipSpace_ne rfl hBracket)]
        exact carriesOver_ok _ hRespaced.skipSpace

theorem ignoresSpacing_step :
    IgnoresSpacing (step nested) := by
  intro s t hRespaced
  rcases twice_or_once_or_not '.' (skipSpace s) with ⟨rest, hStart⟩ | ⟨rest, hStart, hOne⟩ | hNone
  · obtain ⟨next, hStart', hNext⟩ := hRespaced.starts hStart rfl
    obtain ⟨rest', rfl, hRest⟩ := hNext.cons rfl
    rw [step_of_points hStart, step_of_points hStart']
    exact carriesOver_ok _ hRest
  · obtain ⟨rest', hStart', hRest⟩ := hRespaced.starts hStart rfl
    rw [step_of_point hStart hOne, step_of_point hStart' fun hHead =>
      hOne ((hRest.head?_eq_some_iff rfl).2 hHead)]
    exact carriesOver_ok _ hRest
  · rw [step_of_head?_ne hNone, step_of_head?_ne (hRespaced.head?_skipSpace_ne rfl hNone)]
    refine (ignoresSpacing_axis hRespaced.skipSpace).bind fun axis rest rest' _ hRest => ?_
    refine (ignoresSpacing_nodeTest hRest).bind fun test rest rest' _ hRest => ?_
    refine (ignoresSpacing_predicates h hKeeps hRest).bind fun predicates rest rest' _ hRest => ?_
    exact carriesOver_ok _ hRest

theorem ignoresSpacing_pathTail :
    IgnoresSpacing (pathTail nested) := by
  intro s t hRespaced
  induction hLength : s.length using Nat.strong_induction_on generalizing s t with
  | _ length ih =>
      subst hLength
      have hStep := takesOff_step hKeeps
      -- The two kinds of slashes differ only in the steps that they put before the rest.
      have hSteps : ∀ (join : Step → List Step → List Step) {c : Char} {start inner inner' : List Char},
          skipSpace s = c :: start → inner <:+ start → Respaced inner inner' →
            CarriesOver (step nested inner >>= fun next =>
                pathTail nested next.2 >>= fun others => .ok (join next.1 others.1, others.2))
              (step nested inner' >>= fun next =>
                pathTail nested next.2 >>= fun others => .ok (join next.1 others.1, others.2)) := by
        intro join c start inner inner' hStart hSuffix hInner
        refine (ignoresSpacing_step h hKeeps hInner).bind fun next rest rest' hRead hRest => ?_
        have hShort := ((hStep inner).rest _ hRead).trans hSuffix
        refine (ih _ (length_lt_of_skipSpace_eq_cons hStart hShort) hRest rfl).bind ?_
        exact fun others rest rest' _ hRest => carriesOver_ok _ hRest
      rcases twice_or_once_or_not '/' (skipSpace s) with
        ⟨inner, hStart⟩ | ⟨inner, hStart, hOne⟩ | hNone
      · obtain ⟨next, hStart', hNext⟩ := hRespaced.starts hStart rfl
        obtain ⟨inner', rfl, hInner⟩ := hNext.cons rfl
        rw [pathTail_of_slashes hKeeps hStart, pathTail_of_slashes hKeeps hStart']
        exact hSteps (fun next others => .descendantOrSelf :: next :: others) hStart
          (List.suffix_cons '/' inner) hInner
      · obtain ⟨inner', hStart', hInner⟩ := hRespaced.starts hStart rfl
        rw [pathTail_of_slash hKeeps hStart hOne, pathTail_of_slash hKeeps hStart' fun hHead =>
          hOne ((hInner.head?_eq_some_iff rfl).2 hHead)]
        exact hSteps (fun next others => next :: others) hStart (List.suffix_refl inner) hInner
      · rw [pathTail_of_head?_ne hNone, pathTail_of_head?_ne (hRespaced.head?_skipSpace_ne rfl hNone)]
        exact carriesOver_ok _ hRespaced.skipSpace

theorem ignoresSpacing_relativePath :
    IgnoresSpacing (relativePath nested) := by
  intro s t hRespaced
  refine (ignoresSpacing_step h hKeeps hRespaced).bind fun first rest rest' _ hRest => ?_
  refine (ignoresSpacing_pathTail h hKeeps hRest).bind fun others rest rest' _ hRest => ?_
  exact carriesOver_ok _ hRest

theorem ignoresSpacing_locationPath :
    IgnoresSpacing (locationPath nested) := by
  intro s t hRespaced
  have hPath : IgnoresSpacing (relativePath nested) := ignoresSpacing_relativePath h hKeeps
  rcases twice_or_once_or_not '/' s with ⟨inner, rfl⟩ | ⟨inner, rfl, hOne⟩ | hNone
  · obtain ⟨next, rfl, hNext⟩ := hRespaced.cons rfl
    obtain ⟨inner', rfl, hInner⟩ := hNext.cons rfl
    exact (hPath hInner).bind fun steps rest rest' _ hRest => carriesOver_ok _ hRest
  · obtain ⟨inner', rfl, hInner⟩ := hRespaced.cons rfl
    rw [locationPath_of_slash hOne, locationPath_of_slash fun hHead =>
      hOne ((hInner.head?_eq_some_iff rfl).2 hHead), startsStep_respaced hInner.skipSpace]
    split
    · exact (hPath hInner.skipSpace).bind fun steps rest rest' _ hRest => carriesOver_ok _ hRest
    · exact carriesOver_ok _ hInner.skipSpace
  · rw [locationPath_of_head?_ne hNone, locationPath_of_head?_ne fun hHead =>
      hNone ((hRespaced.head?_eq_some_iff rfl).2 hHead)]
    exact (hPath hRespaced).bind fun steps rest rest' _ hRest => carriesOver_ok _ hRest

theorem ignoresSpacing_closedArguments :
    IgnoresSpacing (closedArguments nested) := by
  intro s t hRespaced
  induction hLength : s.length using Nat.strong_induction_on generalizing s t with
  | _ length ih =>
      subst hLength
      rw [closedArguments_eq hKeeps, closedArguments_eq hKeeps]
      refine (h hRespaced).bind fun first rest rest' hRead hRest => ?_
      have hShorter := ((hKeeps s).rest _ hRead).length_le
      dsimp only at hShorter ⊢
      by_cases hComma : (skipSpace rest).head? = some ','
      · obtain ⟨inner, hStart⟩ := List.head?_eq_some_iff.1 hComma
        obtain ⟨inner', hStart', hInner⟩ := hRest.starts hStart rfl
        have hShort := length_lt_of_skipSpace_eq_cons hStart (List.suffix_refl inner)
        rw [moreArguments_of_comma hStart, moreArguments_of_comma hStart']
        refine (ih _ (by omega) hInner rfl).bind fun others rest rest' _ hRest => ?_
        exact carriesOver_ok _ hRest
      · rw [moreArguments_of_head?_ne hComma,
          moreArguments_of_head?_ne (hRest.head?_skipSpace_ne rfl hComma)]
        exact carriesOver_expect_bind hRest.skipSpace rfl fun rest rest' _ hRest => carriesOver_ok _ hRest

theorem ignoresSpacing_arguments :
    IgnoresSpacing (arguments nested) := by
  intro s t hRespaced
  by_cases hClose : (skipSpace s).head? = some ')'
  · obtain ⟨inner, hStart⟩ := List.head?_eq_some_iff.1 hClose
    obtain ⟨inner', hStart', hInner⟩ := hRespaced.starts hStart rfl
    rw [arguments, hStart, arguments, hStart']
    exact carriesOver_ok _ hInner
  · rw [arguments_of_head?_ne hClose, arguments_of_head?_ne (hRespaced.head?_skipSpace_ne rfl hClose)]
    exact ignoresSpacing_closedArguments h hKeeps hRespaced.skipSpace

theorem ignoresSpacing_functionCall :
    IgnoresSpacing (functionCall nested) := by
  intro s t hRespaced
  refine (ignoresSpacing_name hRespaced).bind fun word rest rest' _ hRest => ?_
  refine carriesOver_expect_bind hRest rfl fun rest rest' _ hRest => ?_
  refine (ignoresSpacing_arguments h hKeeps hRest).bind fun arguments rest rest' _ hRest => ?_
  dsimp only
  cases call word arguments with
  | error cause => exact carriesOver_error _ _
  | ok call => exact carriesOver_ok _ hRest

theorem ignoresSpacing_primary :
    IgnoresSpacing (primary nested) := by
  intro s t hRespaced
  have hCall : IgnoresSpacing (functionCall nested) := ignoresSpacing_functionCall h hKeeps
  cases s with
  | nil => exact carriesOver_error _ _
  | cons c s =>
      by_cases hParenthesis : c = '('
      · subst hParenthesis
        obtain ⟨t, rfl, hInner⟩ := hRespaced.cons rfl
        refine (h hInner).bind fun inner rest rest' _ hRest => ?_
        exact carriesOver_expect_bind hRest rfl fun rest rest' _ hRest => carriesOver_ok _ hRest
      by_cases hVariable : c = '$'
      · subst hVariable
        exact carriesOver_error _ _
      have hForm : ∀ s, primary nested (c :: s) = _ := fun _ => primary_of_ne hParenthesis hVariable
      rw [hForm]
      split
      · rename_i hQuote
        have hIsQuote : isQuote c = true := by simpa [isQuote] using hQuote
        have hHead := (hRespaced.head?_eq_some_iff (isSpace_of_isQuote hIsQuote)).1 rfl
        obtain ⟨t, rfl⟩ := List.head?_eq_some_iff.1 hHead
        rw [hForm, if_pos hQuote]
        refine (textLiteral_respaced hRespaced hIsQuote).bind fun literal rest rest' _ hRest => ?_
        exact carriesOver_ok _ hRest
      rename_i hQuote
      split
      · rename_i hNumber
        have hPlain : isPlain c = true := by
          rw [Bool.or_eq_true, decide_eq_true_eq] at hNumber
          obtain hDigit | rfl := hNumber
          · exact isPlain_of_isDigit hDigit
          · rfl
        obtain ⟨t, rfl, -⟩ := hRespaced.cons hPlain
        obtain ⟨hValue, hRest⟩ := numberLiteral_respaced hRespaced
        rw [hForm, if_neg hQuote, if_pos hNumber, hValue]
        exact carriesOver_ok _ hRest
      · rename_i hNumber
        by_cases hName : isNameStart c = true
        · obtain ⟨t, rfl, -⟩ := hRespaced.cons (isPlain_of_isNameStart hName)
          rw [hForm, if_neg hQuote, if_neg hNumber]
          exact hCall hRespaced
        · rw [functionCall, name, if_neg hName]
          exact carriesOver_error _ _

theorem ignoresSpacing_filterExpr :
    IgnoresSpacing (filterExpr nested) := by
  intro s t hRespaced
  refine (ignoresSpacing_primary h hKeeps hRespaced).bind fun first rest rest' _ hRest => ?_
  refine (ignoresSpacing_predicates h hKeeps hRest).bind fun predicates rest rest' _ hRest => ?_
  refine (ignoresSpacing_pathTail h hKeeps hRest).bind fun steps rest rest' _ hRest => ?_
  dsimp only
  split
  · exact carriesOver_ok _ hRest
  · exact carriesOver_ok _ hRest

theorem ignoresSpacing_pathExpr :
    IgnoresSpacing (pathExpr nested) := by
  intro s t hRespaced
  cases hStart : skipSpace s with
  | nil =>
      rw [pathExpr, hStart]
      exact carriesOver_error _ _
  | cons c rest =>
      have hSpace := Text.isSpace_of_skipSpace_eq_cons hStart
      have hSkip := hRespaced.skipSpace
      have hHead : (skipSpace t).head? = some c :=
        (hSkip.head?_eq_some_iff hSpace).1 (congrArg List.head? hStart)
      obtain ⟨rest', hStart'⟩ := List.head?_eq_some_iff.1 hHead
      rw [pathExpr_of_start hStart, pathExpr_of_start hStart',
        startsPrimary_respaced hRespaced hStart hStart']
      rw [hStart, hStart'] at hSkip
      rw [startsStep_respaced hSkip]
      split
      · exact ignoresSpacing_filterExpr h hKeeps hSkip
      · split
        · exact ignoresSpacing_locationPath h hKeeps hSkip
        · exact carriesOver_error _ _

end Nested

section Operators

/-- Whether a reader of operators takes the same operator off respaced texts. -/
def OperatorIgnoresSpacing (operator? : OperatorReader) : Prop :=
  ∀ {s t operator rest}, Respaced s t → operator? s = some (operator, rest) →
    ∃ rest', operator? t = some (operator, rest') ∧ Respaced rest rest'

theorem OperatorIgnoresSpacing.eq_none {operator? : OperatorReader} (h : OperatorIgnoresSpacing operator?)
    {s t : List Char} (hRespaced : Respaced s t) (hNone : operator? s = none) :
    operator? t = none := by
  cases hRead : operator? t with
  | none => rfl
  | some read =>
      obtain ⟨rest, hSome, -⟩ := h hRespaced.symm hRead
      rw [hNone] at hSome
      cases hSome

theorem operatorIgnoresSpacing_keyword {word : List Char} (hPlain : word.all isPlain = true)
    (operator : Operator) :
    OperatorIgnoresSpacing fun s => (keyword? word s).map (operator, ·) := by
  intro s t _ rest hRespaced hRead
  obtain ⟨_, hWord, ⟨⟩⟩ := Option.map_eq_some_iff.1 hRead
  obtain ⟨rest', hWord', hRest⟩ := keyword?_respaced hRespaced hPlain hWord
  exact ⟨rest', Option.map_eq_some_iff.2 ⟨_, hWord', rfl⟩, hRest⟩

theorem operatorIgnoresSpacing_equalityOperator :
    OperatorIgnoresSpacing equalityOperator? := by
  intro s t operator rest hRespaced hRead
  unfold equalityOperator? at hRead
  split at hRead <;> cases hRead
  · obtain ⟨next, rfl, hNext⟩ := hRespaced.cons rfl
    obtain ⟨rest', rfl, hRest⟩ := hNext.cons rfl
    exact ⟨rest', rfl, hRest⟩
  · obtain ⟨rest', rfl, hRest⟩ := hRespaced.cons rfl
    exact ⟨rest', rfl, hRest⟩

theorem OrderSign.isPlain {c : Char} {alone followed : Comparison} (hSign : OrderSign c alone followed) :
    isPlain c = true := by
  cases hSign <;> rfl

theorem operatorIgnoresSpacing_relationalOperator :
    OperatorIgnoresSpacing relationalOperator? := by
  intro s t operator rest hRespaced hRead
  by_cases hStart : ∃ c alone followed, OrderSign c alone followed ∧ s.head? = some c
  · obtain ⟨c, alone, followed, hSign, hHead⟩ := hStart
    obtain ⟨inner, rfl⟩ := List.head?_eq_some_iff.1 hHead
    obtain ⟨inner', rfl, hInner⟩ := hRespaced.cons hSign.isPlain
    by_cases hTwo : inner.head? = some '='
    · obtain ⟨inner, rfl⟩ := List.head?_eq_some_iff.1 hTwo
      obtain ⟨rest', rfl, hRest⟩ := hInner.cons rfl
      rw [relationalOperator?_sign_equals hSign] at hRead
      cases hRead
      exact ⟨rest', relationalOperator?_sign_equals hSign rest', hRest⟩
    · have hTwo' : inner'.head? ≠ some '=' := fun hHead => hTwo ((hInner.head?_eq_some_iff rfl).2 hHead)
      rw [relationalOperator?_sign hSign hTwo] at hRead
      cases hRead
      exact ⟨inner', relationalOperator?_sign hSign hTwo', hInner⟩
  · rw [relationalOperator?_of_not_sign fun c alone followed hSign hHead =>
      hStart ⟨c, alone, followed, hSign, hHead⟩] at hRead
    cases hRead

theorem operatorIgnoresSpacing_additiveOperator :
    OperatorIgnoresSpacing additiveOperator? := by
  intro s t operator rest hRespaced hRead
  unfold additiveOperator? at hRead
  split at hRead <;> cases hRead
  · obtain ⟨rest', rfl, hRest⟩ := hRespaced.cons rfl
    exact ⟨rest', rfl, hRest⟩
  · obtain ⟨rest', rfl, hRest⟩ := hRespaced.cons rfl
    exact ⟨rest', rfl, hRest⟩

theorem operatorIgnoresSpacing_multiplicativeOperator :
    OperatorIgnoresSpacing multiplicativeOperator? := by
  intro s t operator rest hRespaced hRead
  have hDivide : OperatorIgnoresSpacing fun s => (keyword? ['d', 'i', 'v'] s).map
      (Operator.arithmetic .divide, ·) :=
    operatorIgnoresSpacing_keyword rfl _
  have hModulo : OperatorIgnoresSpacing fun s => (keyword? ['m', 'o', 'd'] s).map
      (Operator.arithmetic .modulo, ·) :=
    operatorIgnoresSpacing_keyword rfl _
  by_cases hStar : s.head? = some '*'
  · obtain ⟨inner, rfl⟩ := List.head?_eq_some_iff.1 hStar
    obtain ⟨rest', rfl, hRest⟩ := hRespaced.cons rfl
    cases hRead
    exact ⟨rest', rfl, hRest⟩
  have hStar' : t.head? ≠ some '*' := fun hHead => hStar ((hRespaced.head?_eq_some_iff rfl).2 hHead)
  rw [multiplicativeOperator?_of_head?_ne hStar] at hRead
  rw [multiplicativeOperator?_of_head?_ne hStar']
  cases hWord : keyword? ['d', 'i', 'v'] s with
  | some last =>
      rw [hWord] at hRead
      cases hRead
      obtain ⟨rest', hWord', hRest⟩ := keyword?_respaced hRespaced rfl hWord
      exact ⟨rest', by rw [hWord'], hRest⟩
  | none =>
      rw [hWord] at hRead
      rw [Option.map_eq_none_iff.1 (hDivide.eq_none hRespaced (Option.map_eq_none_iff.2 hWord))]
      exact hModulo hRespaced hRead

theorem operatorIgnoresSpacing_unionOperator :
    OperatorIgnoresSpacing unionOperator? := by
  intro s t operator rest hRespaced hRead
  unfold unionOperator? at hRead
  split at hRead <;> cases hRead
  obtain ⟨rest', rfl, hRest⟩ := hRespaced.cons rfl
  exact ⟨rest', rfl, hRest⟩

theorem operatorIgnoresSpacing_of_mem {operator? : OperatorReader} (h : operator? ∈ operatorReaders) :
    OperatorIgnoresSpacing operator? := by
  simp only [operatorReaders, List.mem_cons, List.not_mem_nil, or_false] at h
  rcases h with rfl | rfl | rfl | rfl | rfl | rfl
  · exact operatorIgnoresSpacing_keyword (show ['o', 'r'].all isPlain = true from rfl) .or
  · exact operatorIgnoresSpacing_keyword (show ['a', 'n', 'd'].all isPlain = true from rfl) .and
  · exact operatorIgnoresSpacing_equalityOperator
  · exact operatorIgnoresSpacing_relationalOperator
  · exact operatorIgnoresSpacing_additiveOperator
  · exact operatorIgnoresSpacing_multiplicativeOperator

end Operators

section Levels

variable {operator? : OperatorReader} {operand nested : Reader Expr}

theorem ignoresSpacing_chain (hShortens : Shortens operator?) (hOperator : OperatorIgnoresSpacing operator?)
    (h : IgnoresSpacing operand) (hKeeps : TakesOff operand) :
    IgnoresSpacing (chain operator? operand) := by
  have hLinks : ∀ left, IgnoresSpacing (links operator? operand left) := by
    intro left s t hRespaced
    induction hLength : s.length using Nat.strong_induction_on generalizing s t left with
    | _ length ih =>
        subst hLength
        cases hRead : operator? (skipSpace s) with
        | none =>
            rw [links_of_none hRead, links_of_none (hOperator.eq_none hRespaced.skipSpace hRead)]
            exact carriesOver_ok _ hRespaced.skipSpace
        | some read =>
            obtain ⟨operator, rest⟩ := read
            obtain ⟨rest', hRead', hRest⟩ := hOperator hRespaced.skipSpace hRead
            rw [links_of_some hShortens hKeeps hRead, links_of_some hShortens hKeeps hRead']
            refine (h hRest).bind fun right last last' hRight hLast => ?_
            have hShort := length_lt_of_operator hShortens hRead
            have hLeft := ((hKeeps rest).rest _ hRight).length_le
            exact ih _ (by dsimp only at hLeft; omega) _ hLast rfl
  intro s t hRespaced
  exact (h hRespaced).bind fun first rest rest' _ hRest => hLinks first hRest

theorem ignoresSpacing_foldr_chain {readers : List OperatorReader}
    (hReaders : ∀ operator? ∈ readers, Shortens operator? ∧ OperatorIgnoresSpacing operator?)
    (h : IgnoresSpacing operand) (hKeeps : TakesOff operand) :
    IgnoresSpacing (readers.foldr chain operand) := by
  induction readers with
  | nil => exact h
  | cons operator? readers ih =>
      obtain ⟨hFirst, hOthers⟩ := List.forall_mem_cons.1 hReaders
      exact ignoresSpacing_chain hFirst.1 hFirst.2 (ih hOthers)
        (takesOff_foldr_chain (fun _ hMem => (hOthers _ hMem).1) hKeeps)

theorem ignoresSpacing_binaryLevels (h : IgnoresSpacing operand) (hKeeps : TakesOff operand) :
    IgnoresSpacing (binaryLevels operand) :=
  ignoresSpacing_foldr_chain
    (fun operator? hMem => ⟨(shortens_and_steady operator? hMem).1, operatorIgnoresSpacing_of_mem hMem⟩)
    h hKeeps

theorem ignoresSpacing_tooDeep :
    IgnoresSpacing tooDeep :=
  fun _ => carriesOver_error _ _

theorem ignoresSpacing_signed (hOperand : IgnoresSpacing operand) (hNested : IgnoresSpacing nested)
    (hKeeps : TakesOff nested) :
    IgnoresSpacing (signed operand nested) := by
  intro s t hRespaced
  have hUnion : IgnoresSpacing (chain unionOperator? (pathExpr nested)) :=
    ignoresSpacing_chain shortens_unionOperator operatorIgnoresSpacing_unionOperator
      (ignoresSpacing_pathExpr hNested hKeeps) (takesOff_pathExpr hKeeps)
  by_cases hMinus : (skipSpace s).head? = some '-'
  · obtain ⟨rest, hStart⟩ := List.head?_eq_some_iff.1 hMinus
    obtain ⟨rest', hStart', hRest⟩ := hRespaced.starts hStart rfl
    rw [signed_of_minus hStart, signed_of_minus hStart']
    exact (hOperand hRest).bind fun inner rest rest' _ hRest => carriesOver_ok _ hRest
  · rw [signed_of_head?_ne hMinus, signed_of_head?_ne (hRespaced.head?_skipSpace_ne rfl hMinus)]
    exact hUnion hRespaced.skipSpace

theorem ignoresSpacing_unary (levels : Nat) :
    IgnoresSpacing (unary levels) := by
  induction levels with
  | zero => exact ignoresSpacing_signed ignoresSpacing_tooDeep ignoresSpacing_tooDeep takesOff_tooDeep
  | succ levels ih =>
      exact ignoresSpacing_signed ih (ignoresSpacing_binaryLevels ih (takesOff_unary levels))
        (takesOff_binaryLevels (takesOff_unary levels))

theorem ignoresSpacing_expression (levels : Nat) :
    IgnoresSpacing (expression levels) := by
  cases levels with
  | zero => exact ignoresSpacing_tooDeep
  | succ levels => exact ignoresSpacing_binaryLevels (ignoresSpacing_unary levels) (takesOff_unary levels)

/-- A text is read as an expression if that leaves nothing but white space of it. -/
theorem parse_of_expression {text : String} {expr : Expr} {rest : List Char}
    (h : expression maxNesting text.toList = .ok (expr, rest)) (hEnd : skipSpace rest = []) :
    parse text = .ok expr := by
  have hWhole : whole text.toList = .ok expr := by
    refine bind_eq_ok h ?_
    dsimp only
    rw [hEnd]
    rfl
  rw [parse, hWhole]

/-- White space before an expression makes no difference. -/
theorem sameResult_of_skipSpace_eq {text other : String}
    (h : skipSpace text.toList = skipSpace other.toList) :
    SameResult (parse text) (parse other) := by
  have hReads : ∀ {text other : String}, skipSpace text.toList = skipSpace other.toList →
      ∀ expr, parse text = .ok expr → parse other = .ok expr := by
    intro text other h expr hParse
    have hRead := expression_of_parse hParse
    rw [maxNesting, expression_congr 63 h] at hRead
    exact parse_of_expression hRead rfl
  exact fun expr => ⟨hReads h expr, hReads h.symm expr⟩

/-- Respaced texts are read as the same expressions. -/
theorem sameResult_parse {text other : String} (h : Respaced text.toList other.toList) :
    SameResult (parse text) (parse other) := by
  have hReads : ∀ {text other : String}, Respaced text.toList other.toList →
      ∀ expr, parse text = .ok expr → parse other = .ok expr := by
    intro text other h expr hParse
    obtain ⟨rest, hRead, hRest⟩ := ignoresSpacing_expression maxNesting h _ _ (expression_of_parse hParse)
    refine parse_of_expression hRead ?_
    cases hEnd : skipSpace rest with
    | nil => rfl
    | cons c inner =>
        have hHead := hRest.skipSpace.head?_eq_some_iff (Text.isSpace_of_skipSpace_eq_cons hEnd)
        rw [hEnd] at hHead
        cases hHead.2 rfl
  exact fun expr => ⟨hReads h expr, hReads h.symm expr⟩

end Levels

end Parse

/-- Whether a text consists of white space. -/
def IsSpacing (text : String) : Prop :=
  text.toList.all isSpace = true

theorem IsSpacing.not_mem {text : String} {quote : Char} (h : IsSpacing text)
    (hQuote : isQuote quote = true) :
    quote ∉ text.toList := by
  intro hMem
  have hSpace := isSpace_of_isQuote hQuote
  rw [List.all_eq_true.1 h quote hMem] at hSpace
  cases hSpace

/-- White space around the parts of an expression is immaterial.  An expression stays the same, and what
is none stays none, if a gap outside of literals is replaced by another that is not empty, or if white
space is added or removed at either end.  A place counts as outside of literals too if it is behind a quote
that nothing closes. -/
theorem parse_respaced :
    (∀ before gap gap' after : String, IsSpacing gap → IsSpacing gap' → gap ≠ "" → gap' ≠ "" →
      (∀ quote, openQuote? before.toList = some quote → quote ∉ after.toList) →
        SameResult (parse (before ++ gap ++ after)) (parse (before ++ gap' ++ after))) ∧
    ∀ text gap : String, IsSpacing gap →
      SameResult (parse (gap ++ text)) (parse text) ∧ SameResult (parse (text ++ gap)) (parse text) := by
  refine ⟨fun before gap gap' after hGap hGap' hSome hSome' hOutside => ?_,
    fun text gap hGap => ⟨?_, ?_⟩⟩
  · refine Parse.sameResult_parse ?_
    simp only [String.toList_append, List.append_assoc]
    refine respaced_append ?_
    cases hOpen : openQuote? before.toList with
    | none =>
        refine .gap hGap hGap' ?_ ?_ (respaced_refl _)
        · rwa [ne_eq, String.toList_eq_nil_iff]
        · rwa [ne_eq, String.toList_eq_nil_iff]
    | some quote =>
        have hQuote := isQuote_of_openQuote? hOpen
        refine ⟨fun hMem => ?_, fun hMem => ?_⟩
        · exact (List.mem_append.1 hMem).elim (hGap.not_mem hQuote) (hOutside quote hOpen)
        · exact (List.mem_append.1 hMem).elim (hGap'.not_mem hQuote) (hOutside quote hOpen)
  · refine Parse.sameResult_of_skipSpace_eq ?_
    rw [String.toList_append, Text.skipSpace_append_of_all hGap]
  · have hEnds : Interchangeable (openQuote? text.toList) gap.toList [] := by
      cases hOpen : openQuote? text.toList with
      | none => exact .blank hGap rfl
      | some quote => exact ⟨hGap.not_mem (isQuote_of_openQuote? hOpen), List.not_mem_nil⟩
    have hRespaced := respaced_append hEnds
    rw [List.append_nil, ← String.toList_append] at hRespaced
    exact Parse.sameResult_parse hRespaced

/-- A gap behind a literal with a gap of its own, which is replaced by two characters of which one takes
three bytes. -/
theorem parse_respaced_literal :
    IsSpacing " " ∧ IsSpacing "\u3000\n" ∧
      (∀ quote, openQuote? "'a  b'".toList = some quote → quote ∉ "or c".toList) ∧
      parse ("'a  b'" ++ "\u3000\n" ++ "or c") =
        .ok (.or (.literal "a  b") (.path false [.mk .child (.named "c") []])) ∧
      parse ("'a  b'" ++ "\u3000\n" ++ "or c" ++ " ") = parse ("'a  b'" ++ "\u3000\n" ++ "or c") := by
  have hGap : IsSpacing " " := rfl
  have hWide : IsSpacing "\u3000\n" := rfl
  have hOutside : ∀ quote, openQuote? "'a  b'".toList = some quote → quote ∉ "or c".toList := by
    rintro quote ⟨⟩
  have hRead : parse ("'a  b'" ++ "\u3000\n" ++ "or c") =
      .ok (.or (.literal "a  b") (.path false [.mk .child (.named "c") []])) :=
    (parse_respaced.1 _ " " _ _ hGap hWide (by decide) (by decide) hOutside _).1 rfl
  exact ⟨hGap, hWide, hOutside, hRead, (((parse_respaced.2 _ " " hGap).2 _).2 hRead).trans hRead.symm⟩

end CborPath
