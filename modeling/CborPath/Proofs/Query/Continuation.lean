import CborPath.Proofs.Query.Boundaries
import CborPath.Proofs.Query.NestingLimit

/-!
# Expressions within longer texts

Wherever an expression may end, a reader does not look beyond: what it takes off a text it also takes
off the text followed by a closing bracket or a comma.  With fewer levels of nesting it takes off the
same, unless they are not enough; and then they are not, whatever follows.
-/

namespace CborPath

open Text (skipSpace)

namespace Parse

/-- Whether outcomes for a text with further text after it go with the one for the text alone: they are
the same result, with the further text left as well, or, if fewer levels are allowed, the failure of
what nests too deeply. -/
def Extends {α : Type} (fewer : Prop) (outcome : Except Fault (α × List Char))
    (others : List Char → Except Fault (α × List Char)) : Prop :=
  ∀ x rest, outcome = .ok (x, rest) →
    (∀ more, GoesOn closers more → others more = .ok (x, rest ++ more)) ∨
      fewer ∧ ∀ more, GoesOn closers more → FailsDeep (others more)

section Extends

variable {α β : Type} {fewer : Prop} {rest s : List Char} {outcome : Except Fault (α × List Char)}
  {others others' : List Char → Except Fault (α × List Char)}

theorem extends_ok {x : α} (h : ∀ more, GoesOn closers more → others more = .ok (x, rest ++ more)) :
    Extends fewer (.ok (x, rest)) others := by
  rintro _ _ ⟨⟩
  exact .inl h

theorem extends_error (fault : Fault) (others : List Char → Except Fault (α × List Char)) :
    Extends fewer (.error fault) others := by
  rintro _ _ ⟨⟩

theorem extends_of_failsDeep (hFewer : fewer) (outcome : Except Fault (α × List Char))
    (h : ∀ more, GoesOn closers more → FailsDeep (others more)) :
    Extends fewer outcome others :=
  fun _ _ _ => .inr ⟨hFewer, h⟩

/-- What is read alike with anything after it. -/
theorem extends_of_append
    (h : ∀ x rest, outcome = .ok (x, rest) → ∀ more, GoesOn closers more →
      others more = .ok (x, rest ++ more)) :
    Extends fewer outcome others :=
  fun x rest hRead => .inl (h x rest hRead)

theorem Extends.of_eq (hEq : ∀ more, GoesOn closers more → others more = others' more)
    (h : Extends fewer outcome others') :
    Extends fewer outcome others := by
  intro x rest hRead
  rcases h x rest hRead with hResult | ⟨hFewer, hDeep⟩
  · exact .inl fun more hMore => (hEq more hMore).trans (hResult more hMore)
  · exact .inr ⟨hFewer, fun more hMore => (hEq more hMore).symm ▸ hDeep more hMore⟩

theorem Extends.mono {less : Prop} (h : Extends fewer outcome others) (hLess : fewer → less) :
    Extends less outcome others :=
  fun x rest hRead => (h x rest hRead).imp_right fun hDeep => ⟨hLess hDeep.1, hDeep.2⟩

theorem Extends.bind {next : α × List Char → Except Fault (β × List Char)}
    {next' : List Char → α × List Char → Except Fault (β × List Char)}
    (h : Extends fewer outcome others)
    (hNext : ∀ x rest, outcome = .ok (x, rest) →
      Extends fewer (next (x, rest)) fun more => next' more (x, rest ++ more)) :
    Extends fewer (outcome >>= next) fun more => others more >>= next' more := by
  cases outcome with
  | error fault => exact extends_error fault _
  | ok read =>
      obtain ⟨x, rest⟩ := read
      rcases h x rest rfl with hResult | ⟨hFewer, hDeep⟩
      · refine .of_eq (fun more hMore => ?_) (hNext x rest rfl)
        rw [hResult more hMore]
        rfl
      · exact extends_of_failsDeep hFewer _ fun more hMore => (hDeep more hMore).bind

theorem extends_expect_bind {c : Char} {next : List Char → Except Fault (β × List Char)}
    {next' : List Char → List Char → Except Fault (β × List Char)}
    (hNext : ∀ left, expect c s = .ok left →
      Extends fewer (next left) fun more => next' more (left ++ more)) :
    Extends fewer (expect c s >>= next) fun more => expect c (s ++ more) >>= next' more := by
  cases hExpect : expect c s with
  | error fault => exact extends_error fault _
  | ok left =>
      refine .of_eq (fun more hMore => ?_) (hNext left hExpect)
      rw [expect_append hMore hExpect]
      rfl

end Extends

/-- Whether a reader, or one with fewer levels, takes off a text with further text after it what it
takes off the text alone. -/
def Tracks {α : Type} (fewer : Prop) (reader other : Reader α) : Prop :=
  ∀ s, Extends fewer (reader s) fun more => other (s ++ more)

section Lexeme

variable {fewer : Prop}

theorem tracks_name :
    Tracks fewer name name :=
  fun _ => extends_of_append fun _ _ hRead _ hMore => name_append hMore hRead

theorem tracks_axis :
    Tracks fewer axis axis :=
  fun _ => extends_of_append fun _ _ hRead _ hMore => axis_append hMore hRead

theorem tracks_nodeTest :
    Tracks fewer nodeTest nodeTest :=
  fun _ => extends_of_append fun _ _ hRead _ hMore => nodeTest_append hMore hRead

theorem tracks_textLiteral (quote : Char) :
    Tracks fewer (textLiteral quote) (textLiteral quote) :=
  fun _ => extends_of_append fun _ _ hRead _ _ => textLiteral_append hRead

end Lexeme

section Forms

variable {nested : Reader Expr} {s rest : List Char} {c : Char}

theorem locationPath_of_slash (hOne : s.head? ≠ some '/') :
    locationPath nested ('/' :: s) =
      if startsStep (skipSpace s) then do
        let (steps, rest) ← relativePath nested (skipSpace s)
        return (.path true steps, rest)
      else .ok (.path true [], skipSpace s) := by
  rw [locationPath.eq_def]
  split
  · rename_i hTwo
    cases hTwo
    exact absurd rfl hOne
  · rename_i hSlash
    cases hSlash
    rfl
  · rename_i hNone
    exact absurd rfl (hNone s)

theorem locationPath_of_head?_ne (h : s.head? ≠ some '/') :
    locationPath nested s = (do
      let (steps, rest) ← relativePath nested s
      return (.path false steps, rest)) := by
  rw [locationPath.eq_def]
  split
  · exact absurd rfl h
  · exact absurd rfl h
  · rfl

theorem primary_of_ne (hParenthesis : c ≠ '(') (hVariable : c ≠ '$') :
    primary nested (c :: s) =
      if c = '"' || c = '\x27' then do
        let (literal, rest) ← textLiteral c s
        return (.literal literal, rest)
      else if c.isDigit || c = '.' then
        .ok (.number (numberLiteral (c :: s)).1, (numberLiteral (c :: s)).2)
      else functionCall nested (c :: s) := by
  rw [primary.eq_def]
  split
  · rename_i hEq
    exact absurd (List.cons.inj hEq).1 hParenthesis
  · rename_i hEq
    exact absurd (List.cons.inj hEq).1 hVariable
  · rfl

theorem pathExpr_of_start (hStart : skipSpace s = c :: rest) :
    pathExpr nested s =
      if startsPrimary (c :: rest) then filterExpr nested (c :: rest)
      else if c == '/' || startsStep (c :: rest) then locationPath nested (c :: rest)
      else .error ⟨.unexpectedChar c, c :: rest⟩ := by
  rw [pathExpr, hStart]

theorem signed_of_minus {operand : Reader Expr} (hStart : skipSpace s = '-' :: rest) :
    signed operand nested s = (do
      let (inner, rest) ← operand rest
      return (.negate inner, rest)) := by
  rw [signed, hStart]
  rfl

theorem signed_of_head?_ne {operand : Reader Expr} (h : (skipSpace s).head? ≠ some '-') :
    signed operand nested s = chain unionOperator? (pathExpr nested) (skipSpace s) := by
  rw [signed]
  split
  · rename_i hMinus
    exact absurd (congrArg List.head? hMinus) h
  · rfl

end Forms

section Nested

variable {fewer : Prop} {nested nested' : Reader Expr} (h : Tracks fewer nested nested')
  (hKeeps : TakesOff nested) (hKeeps' : TakesOff nested')
include h hKeeps hKeeps'

theorem tracks_predicates :
    Tracks fewer (predicates nested) (predicates nested') := by
  intro s
  induction hLength : s.length using Nat.strong_induction_on generalizing s with
  | _ length ih =>
      subst hLength
      by_cases hBracket : (skipSpace s).head? = some '['
      · obtain ⟨inner, hStart⟩ := List.head?_eq_some_iff.1 hBracket
        rw [predicates_of_bracket hKeeps hStart]
        refine .of_eq (fun more hMore =>
          predicates_of_bracket hKeeps' (skipSpace_append_eq_cons hMore hStart)) ?_
        refine (h inner).bind fun predicate rest hRead => extends_expect_bind fun left hClose => ?_
        have hLeft := (suffix_of_expect_eq_ok hClose).trans ((hKeeps inner).rest _ hRead)
        have hOthers := ih _ (length_lt_of_skipSpace_eq_cons hStart hLeft) left rfl
        exact hOthers.bind fun others rest _ => extends_ok fun _ _ => rfl
      · rw [predicates_of_head?_ne hBracket]
        refine extends_ok fun more hMore => ?_
        rw [predicates_of_head?_ne (head?_skipSpace_append_ne hMore (by decide) hBracket),
          skipSpace_append hMore]

theorem tracks_step :
    Tracks fewer (step nested) (step nested') := by
  intro s
  rcases twice_or_once_or_not '.' (skipSpace s) with ⟨rest, hStart⟩ | ⟨rest, hStart, hOne⟩ | hNone
  · rw [step_of_points hStart]
    refine extends_ok fun more hMore => step_of_points ?_
    rw [skipSpace_append_eq_cons hMore hStart, List.cons_append]
  · rw [step_of_point hStart hOne]
    exact extends_ok fun more hMore => step_of_point (skipSpace_append_eq_cons hMore hStart)
      (head?_append_ne hMore (by decide) hOne)
  · rw [step_of_head?_ne hNone]
    refine .of_eq (fun more hMore => (step_of_head?_ne
      (head?_skipSpace_append_ne hMore (by decide) hNone)).trans (by rw [skipSpace_append hMore])) ?_
    refine (tracks_axis _).bind fun axis rest _ => ?_
    refine (tracks_nodeTest _).bind fun test rest _ => ?_
    exact (tracks_predicates h hKeeps hKeeps' rest).bind fun predicates rest _ =>
      extends_ok fun _ _ => rfl

theorem tracks_pathTail :
    Tracks fewer (pathTail nested) (pathTail nested') := by
  intro s
  induction hLength : s.length using Nat.strong_induction_on generalizing s with
  | _ length ih =>
      subst hLength
      have hStep := takesOff_step hKeeps
      -- The two kinds of slashes differ only in the steps that they put before the rest.
      have hSteps : ∀ (join : Step → List Step → List Step) {c : Char} {start inner : List Char},
          skipSpace s = c :: start → inner <:+ start →
            Extends fewer (step nested inner >>= fun next =>
                pathTail nested next.2 >>= fun others => .ok (join next.1 others.1, others.2))
              fun more => step nested' (inner ++ more) >>= fun next =>
                pathTail nested' next.2 >>= fun others => .ok (join next.1 others.1, others.2) := by
        intro join c start inner hStart hInner
        refine (tracks_step h hKeeps hKeeps' inner).bind fun next rest hRead => ?_
        have hRest := ((hStep inner).rest _ hRead).trans hInner
        have hOthers := ih _ (length_lt_of_skipSpace_eq_cons hStart hRest) rest rfl
        dsimp only
        exact hOthers.bind fun others rest _ => extends_ok fun _ _ => rfl
      rcases twice_or_once_or_not '/' (skipSpace s) with
        ⟨inner, hStart⟩ | ⟨inner, hStart, hOne⟩ | hNone
      · rw [pathTail_of_slashes hKeeps hStart]
        refine .of_eq (fun more hMore =>
          pathTail_of_slashes hKeeps' (skipSpace_append_eq_cons hMore hStart)) ?_
        exact hSteps (fun next others => .descendantOrSelf :: next :: others) hStart
          (List.suffix_cons '/' inner)
      · rw [pathTail_of_slash hKeeps hStart hOne]
        refine .of_eq (fun more hMore =>
          pathTail_of_slash hKeeps' (skipSpace_append_eq_cons hMore hStart)
            (head?_append_ne hMore (by decide) hOne)) ?_
        exact hSteps (fun next others => next :: others) hStart (List.suffix_refl inner)
      · rw [pathTail_of_head?_ne hNone]
        refine extends_ok fun more hMore => ?_
        rw [pathTail_of_head?_ne (head?_skipSpace_append_ne hMore (by decide) hNone),
          skipSpace_append hMore]

theorem tracks_relativePath :
    Tracks fewer (relativePath nested) (relativePath nested') := by
  intro s
  refine (tracks_step h hKeeps hKeeps' s).bind fun first rest _ => ?_
  exact (tracks_pathTail h hKeeps hKeeps' rest).bind fun others rest _ => extends_ok fun _ _ => rfl

theorem tracks_locationPath :
    Tracks fewer (locationPath nested) (locationPath nested') := by
  have hPath := tracks_relativePath h hKeeps hKeeps'
  intro s
  rcases twice_or_once_or_not '/' s with ⟨inner, rfl⟩ | ⟨inner, rfl, hOne⟩ | hNone
  · refine (hPath inner).bind ?_
    exact fun steps rest _ => extends_ok fun _ _ => rfl
  · have hMoreSlash : ∀ more, GoesOn closers more → locationPath nested' ('/' :: inner ++ more) =
        if startsStep (skipSpace inner) then do
          let (steps, rest) ← relativePath nested' (skipSpace inner ++ more)
          return (.path true steps, rest)
        else .ok (.path true [], skipSpace inner ++ more) := by
      intro more hMore
      have hStarts : startsStep (skipSpace inner ++ more) = startsStep (skipSpace inner) :=
        head?_append_any hMore (by decide +kernel) _
      rw [List.cons_append, locationPath_of_slash (head?_append_ne hMore (by decide) hOne),
        skipSpace_append hMore, hStarts]
    rw [locationPath_of_slash hOne]
    refine .of_eq hMoreSlash ?_
    by_cases hStarts : startsStep (skipSpace inner) = true
    · simp only [if_pos hStarts]
      exact (hPath _).bind fun steps rest _ => extends_ok fun _ _ => rfl
    · simp only [if_neg hStarts]
      exact extends_ok fun _ _ => rfl
  · rw [locationPath_of_head?_ne hNone]
    refine .of_eq (fun more hMore =>
      locationPath_of_head?_ne (head?_append_ne hMore (by decide) hNone)) ?_
    exact (hPath s).bind fun steps rest _ => extends_ok fun _ _ => rfl

theorem tracks_closedArguments :
    Tracks fewer (closedArguments nested) (closedArguments nested') := by
  intro s
  induction hLength : s.length using Nat.strong_induction_on generalizing s with
  | _ length ih =>
      subst hLength
      rw [closedArguments_eq hKeeps]
      refine .of_eq (fun more hMore => closedArguments_eq hKeeps' (s ++ more)) ?_
      refine (h s).bind fun first rest hRead => ?_
      have hRest := ((hKeeps s).rest _ hRead).length_le
      dsimp only at hRest ⊢
      cases hStart : skipSpace rest with
      | nil =>
          -- Nothing is left for the parenthesis.
          have hHead : (skipSpace rest).head? ≠ some ',' := by
            rw [hStart]
            decide
          rw [moreArguments_of_head?_ne hHead, hStart]
          exact extends_error _ _
      | cons c inner =>
          have hShort := length_lt_of_skipSpace_eq_cons hStart (List.suffix_refl inner)
          by_cases hComma : c = ','
          · subst hComma
            rw [moreArguments_of_comma hStart]
            refine .of_eq (fun more hMore =>
              moreArguments_of_comma (skipSpace_append_eq_cons hMore hStart) first) ?_
            refine (ih _ (by omega) inner rfl).bind ?_
            exact fun others rest _ => extends_ok fun _ _ => rfl
          · have hOther : ∀ tail, (c :: tail).head? ≠ some ',' := head?_cons_ne hComma
            rw [moreArguments_of_head?_ne (by rw [hStart]; exact hOther inner)]
            refine .of_eq (fun more hMore => moreArguments_of_head?_ne (by
              rw [skipSpace_append_eq_cons hMore hStart]
              exact hOther (inner ++ more)) first) ?_
            refine .of_eq (fun more hMore => by rw [skipSpace_append hMore]) ?_
            exact extends_expect_bind fun left _ => extends_ok fun _ _ => rfl

theorem tracks_arguments :
    Tracks fewer (arguments nested) (arguments nested') := by
  intro s
  cases hStart : skipSpace s with
  | nil =>
      -- What is left of nothing is nothing, so no parenthesis closes the arguments.
      intro found rest hRead
      have hHead : (skipSpace s).head? ≠ some ')' := by
        rw [hStart]
        decide
      rw [arguments_of_head?_ne hHead, hStart] at hRead
      obtain ⟨list, hList, hRead⟩ := bind_eq_ok_iff.1 hRead
      obtain ⟨left, hExpect, -⟩ := bind_eq_ok_iff.1 hRead
      have hNone := List.suffix_nil.1 ((keepsTo_argumentsWithin hKeeps _ []).rest _ hList)
      rw [hNone] at hExpect
      cases hExpect
  | cons c inner =>
      by_cases hClose : c = ')'
      · subst hClose
        rw [arguments, hStart]
        refine extends_ok fun more hMore => ?_
        rw [arguments, skipSpace_append_eq_cons hMore hStart]
        rfl
      · have hOther : ∀ tail, (c :: tail).head? ≠ some ')' := head?_cons_ne hClose
        rw [arguments_of_head?_ne (by rw [hStart]; exact hOther inner)]
        refine .of_eq (fun more hMore => (arguments_of_head?_ne (by
          rw [skipSpace_append_eq_cons hMore hStart]
          exact hOther (inner ++ more))).trans (by rw [skipSpace_append hMore])) ?_
        exact tracks_closedArguments h hKeeps hKeeps' (skipSpace s)

theorem tracks_functionCall :
    Tracks fewer (functionCall nested) (functionCall nested') := by
  intro s
  refine (tracks_name s).bind fun word rest _ => ?_
  refine extends_expect_bind fun left _ => ?_
  refine (tracks_arguments h hKeeps hKeeps' left).bind fun arguments rest _ => ?_
  dsimp only
  cases call word arguments with
  | error cause => exact extends_error _ _
  | ok call => exact extends_ok fun _ _ => rfl

theorem tracks_primary :
    Tracks fewer (primary nested) (primary nested') := by
  have hCall := tracks_functionCall h hKeeps hKeeps'
  intro s
  cases s with
  | nil => exact extends_error _ _
  | cons c s =>
      by_cases hParenthesis : c = '('
      · subst hParenthesis
        refine (h s).bind fun inner rest _ => ?_
        exact extends_expect_bind fun left _ => extends_ok fun _ _ => rfl
      by_cases hVariable : c = '$'
      · subst hVariable
        exact extends_error _ _
      rw [primary_of_ne hParenthesis hVariable]
      refine .of_eq (fun more hMore => primary_of_ne hParenthesis hVariable) ?_
      split
      · exact (tracks_textLiteral c s).bind fun literal rest _ => extends_ok fun _ _ => rfl
      · split
        · refine extends_ok fun more hMore => ?_
          have hNumber := numberLiteral_append hMore (c :: s)
          rw [List.cons_append] at hNumber
          exact hNumber ▸ rfl
        · exact hCall (c :: s)

theorem tracks_filterExpr :
    Tracks fewer (filterExpr nested) (filterExpr nested') := by
  intro s
  refine (tracks_primary h hKeeps hKeeps' s).bind fun first rest _ => ?_
  refine (tracks_predicates h hKeeps hKeeps' rest).bind fun predicates rest _ => ?_
  refine (tracks_pathTail h hKeeps hKeeps' rest).bind fun steps rest _ => ?_
  dsimp only
  split
  · exact extends_ok fun _ _ => rfl
  · exact extends_ok fun _ _ => rfl

theorem tracks_pathExpr :
    Tracks fewer (pathExpr nested) (pathExpr nested') := by
  intro s
  cases hStart : skipSpace s with
  | nil =>
      rw [pathExpr, hStart]
      exact extends_error _ _
  | cons c rest =>
      have hMorePath : ∀ more, GoesOn closers more → pathExpr nested' (s ++ more) =
          if startsPrimary (c :: rest) then filterExpr nested' (c :: rest ++ more)
          else if c == '/' || startsStep (c :: rest) then locationPath nested' (c :: rest ++ more)
          else .error ⟨.unexpectedChar c, c :: (rest ++ more)⟩ := by
        intro more hMore
        rw [pathExpr_of_start (skipSpace_append_eq_cons hMore hStart), ← List.cons_append,
          startsPrimary_append hMore]
        rfl
      rw [pathExpr_of_start hStart]
      refine .of_eq hMorePath ?_
      split
      · exact tracks_filterExpr h hKeeps hKeeps' (c :: rest)
      · split
        · exact tracks_locationPath h hKeeps hKeeps' (c :: rest)
        · exact extends_error _ _

end Nested

section Levels

variable {fewer : Prop} {operator? : OperatorReader} {operand operand' nested nested' : Reader Expr}

theorem tracks_links (hOperator : Shortens operator?) (hSteady : Steady operator?)
    (h : Tracks fewer operand operand') (hKeeps : TakesOff operand) (hKeeps' : TakesOff operand')
    (left : Expr) :
    Tracks fewer (links operator? operand left) (links operator? operand' left) := by
  intro s
  induction hLength : s.length using Nat.strong_induction_on generalizing s left with
  | _ length ih =>
      subst hLength
      have hMoreRead : ∀ more, GoesOn closers more → operator? (skipSpace (s ++ more)) =
          (operator? (skipSpace s)).map fun read => (read.1, read.2 ++ more) := by
        intro more hMore
        rw [skipSpace_append hMore, hSteady _ more hMore]
      cases hRead : operator? (skipSpace s) with
      | none =>
          rw [links_of_none hRead]
          refine extends_ok fun more hMore => ?_
          rw [links_of_none (by rw [hMoreRead more hMore, hRead]; rfl), skipSpace_append hMore]
      | some read =>
          obtain ⟨operator, rest⟩ := read
          rw [links_of_some hOperator hKeeps hRead]
          refine .of_eq (fun more hMore => links_of_some hOperator hKeeps' (by
            rw [hMoreRead more hMore, hRead]
            rfl) left) ?_
          refine (h rest).bind fun right last hRight => ?_
          have hShort := length_lt_of_operator hOperator hRead
          have hLast := ((hKeeps rest).rest _ hRight).length_le
          exact ih _ (by dsimp only at hLast; omega) _ last rfl

theorem tracks_chain (hOperator : Shortens operator?) (hSteady : Steady operator?)
    (h : Tracks fewer operand operand') (hKeeps : TakesOff operand) (hKeeps' : TakesOff operand') :
    Tracks fewer (chain operator? operand) (chain operator? operand') := by
  intro s
  refine (h s).bind fun first rest _ => ?_
  exact tracks_links hOperator hSteady h hKeeps hKeeps' first rest

theorem shortens_and_steady : ∀ operator? ∈ operatorReaders, Shortens operator? ∧ Steady operator? := by
  intro operator? hMem
  simp only [operatorReaders, List.mem_cons, List.not_mem_nil, or_false] at hMem
  rcases hMem with rfl | rfl | rfl | rfl | rfl | rfl
  · exact ⟨shortens_orOperator, steady_orOperator⟩
  · exact ⟨shortens_andOperator, steady_andOperator⟩
  · exact ⟨shortens_equalityOperator, steady_equalityOperator⟩
  · exact ⟨shortens_relationalOperator, steady_relationalOperator⟩
  · exact ⟨shortens_additiveOperator, steady_additiveOperator⟩
  · exact ⟨shortens_multiplicativeOperator, steady_multiplicativeOperator⟩

theorem takesOff_foldr_chain {readers : List OperatorReader}
    (hReaders : ∀ operator? ∈ readers, Shortens operator?) (h : TakesOff operand) :
    TakesOff (readers.foldr chain operand) := by
  induction readers with
  | nil => exact h
  | cons operator? readers ih =>
      obtain ⟨hFirst, hOthers⟩ := List.forall_mem_cons.1 hReaders
      exact takesOff_chain hFirst (ih hOthers)

theorem tracks_foldr_chain {readers : List OperatorReader}
    (hReaders : ∀ operator? ∈ readers, Shortens operator? ∧ Steady operator?)
    (h : Tracks fewer operand operand') (hKeeps : TakesOff operand) (hKeeps' : TakesOff operand') :
    Tracks fewer (readers.foldr chain operand) (readers.foldr chain operand') := by
  induction readers with
  | nil => exact h
  | cons operator? readers ih =>
      obtain ⟨hFirst, hOthers⟩ := List.forall_mem_cons.1 hReaders
      have hShortens : ∀ operator? ∈ readers, Shortens operator? := fun _ hMem => (hOthers _ hMem).1
      exact tracks_chain hFirst.1 hFirst.2 (ih hOthers) (takesOff_foldr_chain hShortens hKeeps)
        (takesOff_foldr_chain hShortens hKeeps')

theorem tracks_binaryLevels (h : Tracks fewer operand operand') (hKeeps : TakesOff operand)
    (hKeeps' : TakesOff operand') :
    Tracks fewer (binaryLevels operand) (binaryLevels operand') :=
  tracks_foldr_chain shortens_and_steady h hKeeps hKeeps'

/-- Where no levels are left, everything nests too deeply. -/
theorem tracks_tooDeep (hFewer : fewer) (reader : Reader Expr) :
    Tracks fewer reader tooDeep :=
  fun _ => extends_of_failsDeep hFewer _ fun _ _ => ⟨_, rfl⟩

theorem tracks_signed (hOperand : Tracks fewer operand operand')
    (hNested : Tracks fewer nested nested') (hKeeps : TakesOff nested) (hKeeps' : TakesOff nested') :
    Tracks fewer (signed operand nested) (signed operand' nested') := by
  have hUnion := tracks_chain shortens_unionOperator steady_unionOperator
    (tracks_pathExpr hNested hKeeps hKeeps') (takesOff_pathExpr hKeeps) (takesOff_pathExpr hKeeps')
  intro s
  by_cases hMinus : (skipSpace s).head? = some '-'
  · obtain ⟨rest, hStart⟩ := List.head?_eq_some_iff.1 hMinus
    rw [signed_of_minus hStart]
    refine .of_eq (fun more hMore => signed_of_minus (skipSpace_append_eq_cons hMore hStart)) ?_
    exact (hOperand rest).bind fun inner rest _ => extends_ok fun _ _ => rfl
  · rw [signed_of_head?_ne hMinus]
    refine .of_eq (fun more hMore => (signed_of_head?_ne
      (head?_skipSpace_append_ne hMore (by decide) hMinus)).trans (by rw [skipSpace_append hMore])) ?_
    exact hUnion (skipSpace s)

/-- With fewer levels of nesting, the operand of a minus sign is read as with more of them, as far as
they are enough. -/
theorem tracks_unary {less more : Nat} (hLess : less ≤ more) :
    Tracks (less < more) (unary more) (unary less) := by
  induction more generalizing less with
  | zero =>
      obtain rfl := Nat.le_zero.1 hLess
      have hTooDeep : Tracks (0 < 0) tooDeep tooDeep := fun _ => extends_error _ _
      exact tracks_signed hTooDeep hTooDeep takesOff_tooDeep takesOff_tooDeep
  | succ more ih =>
      have hKeeps := takesOff_unary more
      cases less with
      | zero =>
          have hFewer : 0 < more + 1 := Nat.succ_pos more
          exact tracks_signed (tracks_tooDeep hFewer _) (tracks_tooDeep hFewer _)
            (takesOff_binaryLevels hKeeps) takesOff_tooDeep
      | succ less =>
          have hKeeps' := takesOff_unary less
          have hOperand : Tracks (less + 1 < more + 1) (unary more) (unary less) :=
            fun s => (ih (Nat.le_of_succ_le_succ hLess) s).mono Nat.succ_lt_succ
          exact tracks_signed hOperand (tracks_binaryLevels hOperand hKeeps hKeeps')
            (takesOff_binaryLevels hKeeps) (takesOff_binaryLevels hKeeps')

theorem tracks_expression {less more : Nat} (hLess : less ≤ more) :
    Tracks (less < more) (expression more) (expression less) := by
  cases less with
  | zero =>
      rcases Nat.eq_zero_or_pos more with rfl | hFewer
      · exact fun _ => extends_error _ _
      · exact tracks_tooDeep hFewer _
  | succ less =>
      obtain ⟨more, rfl⟩ : ∃ below, more = below + 1 := ⟨more - 1, by omega⟩
      have hOperand : Tracks (less + 1 < more + 1) (unary more) (unary less) :=
        fun s => (tracks_unary (Nat.le_of_succ_le_succ hLess) s).mono Nat.succ_lt_succ
      exact tracks_binaryLevels hOperand (takesOff_unary more) (takesOff_unary less)

/-- A text that is taken off as a whole is so wherever an expression may end after it; or, with fewer
levels, it nests too deeply there. -/
theorem Tracks.reads_or_overflows {reader other : Reader Expr} {text : List Char} {expr : Expr}
    (h : Tracks fewer reader other) (hRead : reader text = .ok (expr, [])) :
    Reads other text expr ∨ Overflows other text :=
  (h text expr [] hRead).imp_right And.right

end Levels

end Parse

end CborPath
