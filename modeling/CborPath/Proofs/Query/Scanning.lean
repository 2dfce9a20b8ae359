import CborPath.Proofs.Query.Accepted
import CborPath.Proofs.Query.ScannerLexeme

/-!
# Scanning expressions

Scans agree with readers all the way up to whole expressions, given that this is so for what is nested.
Every round of a loop shortens what is left of the text, so that no loop uses up its rounds, and every
level of nesting is one less for both.  So a scan never halts but where the text is refused, and then at
the place where the reader finds the fault.
-/

namespace CborPath

open Text (placeOf)

namespace Scan

section Call

/-- A function takes its arguments one by one if there are as many as it calls for. -/
theorem run_construct {function : CoreFunction} {arguments : List Expr} {call : Expr} (place : Nat)
    (h : function.call? arguments = some call) :
    (construct function.spelling place).run' arguments = .ok call := by
  unfold CoreFunction.call? at h
  split at h
  case h_10 => cases h
  case h_1 f => cases f <;> cases h <;> rfl
  case h_2 f _ => cases f <;> cases h <;> rfl
  case h_3 f => cases f <;> cases h <;> rfl
  case h_4 f _ => cases f <;> cases h <;> rfl
  case h_5 f _ _ => cases f <;> cases h <;> rfl
  all_goals
    cases h
    rfl

/-- A function is called unless it is given too few or too many arguments. -/
theorem call?_eq_none_iff (function : CoreFunction) (arguments : List Expr) :
    function.call? arguments = none ↔
      arguments.length < function.arity.1 ∨ function.arity.2.any (· < arguments.length) = true := by
  obtain _ | ⟨a, _ | ⟨b, _ | ⟨c, _ | ⟨d, others⟩⟩⟩⟩ := arguments <;> cases function <;>
    simp [CoreFunction.call?, CoreFunction.arity]

theorem resolve_eq (word : String) (arguments : List Expr) (place : Nat) :
    resolve word arguments place =
      match Parse.call word arguments with
      | .ok call => .ok call
      | .error cause => .error (.refused ⟨cause, place⟩) := by
  rw [resolve, Parse.call]
  cases hName : CoreFunction.ofName? word with
  | none => rfl
  | some function =>
      obtain rfl : function.spelling = word := by simpa using List.find?_some hName
      have hNone := call?_eq_none_iff function arguments
      dsimp only
      cases hCall : function.call? arguments with
      | none =>
          rw [if_pos (by simpa using hNone.1 hCall)]
      | some call =>
          rw [if_neg (by simpa [hCall] using hNone), run_construct place hCall]

end Call

section Start

variable {c : Char} {s rest : List Char}

/-- A primary expression begins with one of some marks, with a digit or a point, or like a name. -/
theorem startsPrimary_cases (h : Parse.startsPrimary (c :: rest) = true) :
    (c = '(' ∨ c = '"' ∨ c = '\x27' ∨ c = '$') ∨ c.isDigit = true ∨
      (c = '.' ∧ rest.head?.any Char.isDigit = true) ∨ Parse.isNameStart c = true := by
  simp only [Parse.startsPrimary, Bool.or_eq_true, Bool.and_eq_true, beq_iff_eq] at h
  obtain ((hMark | hDigit) | hPoint) | hCall := h
  · exact .inl (by tauto)
  · exact .inr (.inl hDigit)
  · exact .inr (.inr (.inl hPoint))
  · refine .inr (.inr (.inr ?_))
    rw [Parse.startsCall] at hCall
    split at hCall
    · cases hCall
    · rename_i hName
      exact isNameStart_of_name hName

theorem startsPrimary_of_mark (h : (c = '(' || c = '"' || c = '\x27' || c = '$') = true) :
    Parse.startsPrimary (c :: rest) = true := by
  simp only [Bool.or_eq_true, decide_eq_true_eq] at h
  obtain ((rfl | rfl) | rfl) | rfl := h <;> rfl

theorem startsPrimary_of_isDigit (h : c.isDigit = true) :
    Parse.startsPrimary (c :: rest) = true := by
  simp [Parse.startsPrimary, h]

theorem startsPrimary_point (rest : List Char) :
    Parse.startsPrimary ('.' :: rest) = rest.head?.any Char.isDigit := by
  have hCall : Parse.startsCall ('.' :: rest) = false := rfl
  have hDigit : Char.isDigit '.' = false := rfl
  simp [Parse.startsPrimary, hCall, hDigit]

/-- A number begins with a digit, or with a point that a digit follows. -/
theorem startsNumber_of_startsPrimary (h : Parse.startsPrimary (c :: rest) = true)
    (hNumber : (c.isDigit || c = '.') = true) :
    c.isDigit = true ∨ c = '.' ∧ rest.head?.any Char.isDigit = true := by
  simp only [Bool.or_eq_true, decide_eq_true_eq] at hNumber
  obtain hDigit | rfl := hNumber
  · exact .inl hDigit
  · exact .inr ⟨rfl, startsPrimary_point rest ▸ h⟩

/-- No white space stands where a primary expression begins. -/
theorem skipSpace_of_startsPrimary (h : Parse.startsPrimary s = true) :
    Text.skipSpace s = s := by
  obtain _ | ⟨c, rest⟩ := s
  · rfl
  refine Text.skipSpace_cons_of_not_isSpace ?_ rest
  obtain (rfl | rfl | rfl | rfl) | hDigit | ⟨rfl, -⟩ | hName := startsPrimary_cases h
  · decide
  · decide
  · decide
  · decide
  · exact Parse.isSpace_of_isDigit hDigit
  · decide
  · exact Parse.isSpace_of_isNameStart hName

end Start

section Nested

variable {text : List Char} {nested : Scan Expr} {reader : Parse.Reader Expr}
variable (h : Follows text nested reader)

include h

theorem agrees_predicatesWithin {bound bound' : Nat} {s : List Char} (hs : s <:+ text)
    (hBound : s.length < bound) (hBound' : s.length < bound') :
    Agrees text s (predicatesWithin text nested bound) (Parse.predicatesWithin reader bound' s) := by
  induction bound generalizing bound' s with
  | zero => exact absurd hBound (Nat.not_lt_zero _)
  | succ bound ih =>
      obtain ⟨bound', rfl⟩ : ∃ less, bound' = less + 1 := ⟨bound' - 1, by omega⟩
      have hSkip := (Parse.skipSpace_suffix s).trans hs
      rw [predicatesWithin]
      refine Agrees.after ?_ (run_skipSpace hs)
      refine agrees_if_peek hSkip (fun inner hStart => ?_) fun hOther => ?_
      · have hInner := (Parse.suffix_of_skipSpace_eq_cons hStart).trans hs
        rw [Parse.predicatesWithin_of_bracket hStart]
        rw [hStart] at hSkip ⊢
        refine Agrees.after ?_ (run_next hSkip)
        refine h.bind hInner fun predicate rest hRest => ?_
        refine agrees_expect_bind (hRest.trans hInner) fun later hLater => ?_
        have hShorter := Parse.length_lt_of_skipSpace_eq_cons hStart (hLater.trans hRest)
        refine (ih ((hLater.trans hRest).trans hInner) (by omega) (by omega)).bind fun others end' _ => ?_
        exact agrees_ok _
      · rw [Parse.predicatesWithin_of_head?_ne hOther]
        exact agrees_ok _

theorem follows_predicates :
    Follows text (predicates text nested) (Parse.predicates reader) :=
  ⟨Parse.takesOff_predicates h.keeps, fun s hs =>
    agrees_predicatesWithin h hs (Nat.lt_succ_of_le hs.length_le) (Nat.lt_succ_self s.length)⟩

theorem agrees_step {s : List Char} (hs : s <:+ text) :
    Agrees text s (step text nested) (Parse.step reader s) := by
  have hSkip := (Parse.skipSpace_suffix s).trans hs
  rw [step]
  refine Agrees.after ?_ (run_skipSpace hs)
  refine agrees_twice_or_once hSkip rfl (fun rest hStart => ?_) (fun rest hStart hOne => ?_)
    fun hOther => ?_
  · rw [Parse.step_of_points hStart]
    rw [hStart] at hSkip ⊢
    have hPoints : ['.', '.'] ++ rest <:+ text := hSkip
    refine Agrees.after ?_ (run_advance hPoints rfl)
    exact agrees_ok _
  · rw [Parse.step_of_point hStart hOne]
    rw [hStart] at hSkip ⊢
    refine Agrees.after ?_ (run_next hSkip)
    exact agrees_ok _
  · rw [Parse.step_of_head?_ne hOther]
    refine (follows_axis text).bind hSkip fun axis rest hRest => ?_
    have hRest := hRest.trans hSkip
    refine (follows_nodeTest text).bind hRest fun test later hLater => ?_
    refine (follows_predicates h).bind (hLater.trans hRest) fun predicates _ _ => ?_
    exact agrees_ok _

theorem follows_step : Follows text (step text nested) (Parse.step reader) :=
  ⟨Parse.takesOff_step h.keeps, fun _ => agrees_step h⟩

theorem agrees_pathTailWithin {bound bound' : Nat} {s : List Char} (hs : s <:+ text)
    (hBound : s.length < bound) (hBound' : s.length < bound') :
    Agrees text s (pathTailWithin text nested bound) (Parse.pathTailWithin reader bound' s) := by
  induction bound generalizing bound' s with
  | zero => exact absurd hBound (Nat.not_lt_zero _)
  | succ bound ih =>
      obtain ⟨bound', rfl⟩ : ∃ less, bound' = less + 1 := ⟨bound' - 1, by omega⟩
      have hSkip := (Parse.skipSpace_suffix s).trans hs
      rw [pathTailWithin]
      refine Agrees.after ?_ (run_skipSpace hs)
      refine agrees_twice_or_once hSkip rfl (fun inner hStart => ?_) (fun inner hStart hOne => ?_)
        fun hOther => ?_
      · rw [Parse.pathTailWithin_of_slashes hStart]
        have hSlash := List.suffix_cons '/' inner
        have hInner := (hSlash.trans (Parse.suffix_of_skipSpace_eq_cons hStart)).trans hs
        rw [hStart] at hSkip ⊢
        have hSlashes : ['/', '/'] ++ inner <:+ text := hSkip
        refine Agrees.after ?_ (run_advance hSlashes rfl)
        refine (follows_step h).bind hInner fun next rest hRest => ?_
        have hShorter := Parse.length_lt_of_skipSpace_eq_cons hStart (hRest.trans hSlash)
        refine (ih (hRest.trans hInner) (by omega) (by omega)).bind fun others _ _ => ?_
        exact agrees_ok _
      · rw [Parse.pathTailWithin_of_slash hStart hOne]
        have hInner := (Parse.suffix_of_skipSpace_eq_cons hStart).trans hs
        rw [hStart] at hSkip ⊢
        refine Agrees.after ?_ (run_next hSkip)
        refine (follows_step h).bind hInner fun next rest hRest => ?_
        have hShorter := Parse.length_lt_of_skipSpace_eq_cons hStart hRest
        refine (ih (hRest.trans hInner) (by omega) (by omega)).bind fun others _ _ => ?_
        exact agrees_ok _
      · rw [Parse.pathTailWithin_of_head?_ne hOther]
        exact agrees_ok _

theorem follows_pathTail : Follows text (pathTail text nested) (Parse.pathTail reader) :=
  ⟨Parse.takesOff_pathTail h.keeps, fun s hs =>
    agrees_pathTailWithin h hs (Nat.lt_succ_of_le hs.length_le) (Nat.lt_succ_self s.length)⟩

theorem follows_relativePath :
    Follows text (relativePath text nested) (Parse.relativePath reader) := by
  refine ⟨Parse.takesOff_relativePath h.keeps, fun s hs => ?_⟩
  refine (follows_step h).bind hs fun first rest hRest => ?_
  exact (follows_pathTail h).bind (hRest.trans hs) fun _ _ _ => agrees_ok _

theorem agrees_locationPath {s : List Char} (hs : s <:+ text) :
    Agrees text s (locationPath text nested) (Parse.locationPath reader s) := by
  have hPath := follows_relativePath h
  rw [locationPath]
  refine agrees_twice_or_once hs rfl (fun rest hStart => ?_) (fun rest hStart hOne => ?_)
    fun hOther => ?_
  · subst hStart
    have hRest := ((List.suffix_cons '/' rest).trans (List.suffix_cons '/' _)).trans hs
    have hSlashes : ['/', '/'] ++ rest <:+ text := hs
    refine Agrees.after ?_ (run_advance hSlashes rfl)
    exact hPath.bind hRest fun _ _ _ => agrees_ok _
  · subst hStart
    have hRest := (List.suffix_cons '/' rest).trans hs
    have hSkip := (Parse.skipSpace_suffix rest).trans hRest
    rw [Parse.locationPath_of_slash hOne, Parse.startsStep]
    refine Agrees.after ?_ (run_next hs)
    refine Agrees.after ?_ (run_skipSpace hRest)
    refine Agrees.after ?_ (run_peek hSkip)
    split
    · exact hPath.bind hSkip fun _ _ _ => agrees_ok _
    · exact agrees_ok _
  · rw [Parse.locationPath_of_head?_ne hOther]
    exact hPath.bind hs fun _ _ _ => agrees_ok _

theorem agrees_argumentsWithin {bound bound' : Nat} {s : List Char} (hs : s <:+ text)
    (hBound : s.length < bound) (hBound' : s.length < bound') :
    Agrees text s (argumentsWithin text nested bound) (Parse.argumentsWithin reader bound' s) := by
  induction bound generalizing bound' s with
  | zero => exact absurd hBound (Nat.not_lt_zero _)
  | succ bound ih =>
      obtain ⟨bound', rfl⟩ : ∃ less, bound' = less + 1 := ⟨bound' - 1, by omega⟩
      rw [argumentsWithin, Parse.argumentsWithin]
      refine h.bind hs fun argument rest hRest => ?_
      have hSkip := (Parse.skipSpace_suffix rest).trans (hRest.trans hs)
      refine Agrees.after ?_ (run_skipSpace (hRest.trans hs))
      refine agrees_if_peek hSkip (fun inner hStart => ?_) fun hOther => ?_
      · have hInner := (Parse.suffix_of_skipSpace_eq_cons hStart).trans hRest
        have hShorter := Parse.length_lt_of_skipSpace_eq_cons hStart (List.suffix_refl inner)
        have hLonger := hRest.length_le
        dsimp only
        rw [hStart] at hSkip ⊢
        refine Agrees.after ?_ (run_next hSkip)
        refine (ih (hInner.trans hs) (by omega) (by omega)).bind fun others _ _ => ?_
        exact agrees_ok _
      · dsimp only
        split
        · rename_i hStart
          exact absurd (congrArg List.head? hStart) hOther
        · exact agrees_ok _

theorem follows_argumentList :
    Follows text (argumentsWithin text nested (text.length + 1)) (Parse.argumentList reader) :=
  ⟨fun s => Parse.keepsTo_argumentsWithin h.keeps _ s, fun s hs =>
    agrees_argumentsWithin h hs (Nat.lt_succ_of_le hs.length_le) (Nat.lt_succ_self s.length)⟩

theorem follows_arguments : Follows text (arguments text nested) (Parse.arguments reader) := by
  refine ⟨Parse.takesOff_arguments h.keeps, fun s hs => ?_⟩
  have hSkip := (Parse.skipSpace_suffix s).trans hs
  rw [arguments]
  refine Agrees.after ?_ (run_skipSpace hs)
  refine agrees_if_peek hSkip (fun rest hStart => ?_) fun hOther => ?_
  · rw [Parse.arguments, hStart]
    rw [hStart] at hSkip
    refine Agrees.after ?_ (run_next hSkip)
    exact agrees_ok _
  · rw [Parse.arguments_of_head?_ne hOther]
    refine (follows_argumentList h).bind hSkip fun arguments rest hRest => ?_
    exact agrees_expect_bind (hRest.trans hSkip) fun _ _ => agrees_ok _

theorem follows_functionCall :
    Follows text (functionCall text nested) (Parse.functionCall reader) := by
  refine ⟨Parse.takesOff_functionCall h.keeps, fun s hs => ?_⟩
  rw [functionCall]
  refine Agrees.after ?_ (run_get _)
  refine (follows_name text).bind hs fun word rest hRest => ?_
  have hRest := hRest.trans hs
  refine agrees_expect_bind hRest fun inner hInner => ?_
  refine (follows_arguments h).bind (hInner.trans hRest) fun arguments later _ => ?_
  rw [resolve_eq]
  dsimp only
  cases Parse.call word arguments with
  | ok call => exact agrees_ok call
  | error cause => exact agrees_refuse cause

theorem agrees_primary {s : List Char} (hs : s <:+ text) (hStart : Parse.startsPrimary s = true) :
    Agrees text s (primary text nested) (Parse.primary reader s) := by
  have hSkip := run_skipSpace hs
  rw [skipSpace_of_startsPrimary hStart] at hSkip
  rw [primary]
  refine Agrees.after ?_ hSkip
  refine Agrees.after ?_ (run_peek hs)
  obtain _ | ⟨c, rest⟩ := s
  · cases hStart
  have hRest := (List.suffix_cons c rest).trans hs
  dsimp only [List.head?_cons]
  by_cases hParenthesis : c = '('
  · subst hParenthesis
    rw [if_pos rfl, Parse.primary]
    refine Agrees.after ?_ (run_next hs)
    refine h.bind hRest fun inner later hLater => ?_
    exact agrees_expect_bind (hLater.trans hRest) fun _ _ => agrees_ok _
  by_cases hVariable : c = '$'
  · subst hVariable
    exact (agrees_refuse _).after (run_get _)
  rw [if_neg hParenthesis, Parse.primary_of_ne hParenthesis hVariable]
  by_cases hQuote : (c = '"' || c = '\x27') = true
  · rw [if_pos hQuote, if_pos hQuote]
    exact (agrees_textLiteral hs (by simpa using hQuote)).bind fun _ _ _ => agrees_ok _
  rw [if_neg hQuote, if_neg hQuote]
  by_cases hNumber : (c.isDigit || c = '.') = true
  · rw [if_pos hNumber, if_pos hNumber]
    have hDigits := startsNumber_of_startsPrimary hStart hNumber
    refine Agrees.after ?_ (agrees_numberLiteral hs (by simpa using hDigits))
    exact agrees_ok _
  rw [if_neg hNumber, if_neg hNumber, if_neg hVariable]
  have hName : Parse.isNameStart c = true := by
    have hCases := startsPrimary_cases hStart
    simp only [Bool.or_eq_true, decide_eq_true_eq, not_or] at hQuote hNumber
    tauto
  rw [if_pos hName]
  exact (follows_functionCall h).agrees _ hs

theorem agrees_filterExpr {s : List Char} (hs : s <:+ text)
    (hStart : Parse.startsPrimary s = true) :
    Agrees text s (filterExpr text nested) (Parse.filterExpr reader s) := by
  have hKeeps := Parse.takesOff_primary h.keeps
  rw [filterExpr]
  refine (agrees_primary h hs hStart).bind fun first rest hRead => ?_
  have hRest := ((hKeeps s).rest _ hRead).trans hs
  refine (follows_predicates h).bind hRest fun predicates later hLater => ?_
  refine (follows_pathTail h).bind (hLater.trans hRest) fun steps _ _ => ?_
  dsimp only
  split <;> exact agrees_ok _

/-- Whether a name is called is told by what comes after it. -/
theorem agrees_callOrPath {c : Char} {rest : List Char} (hs : c :: rest <:+ text)
    (hName : Parse.isNameStart c = true) :
    Agrees text (c :: rest) (do
        let start ← get
        let word ← name text
        moveTo text start
        if (← charAfterName text) = some '(' && !Parse.isNodeTypeName word then
          filterExpr text nested
        else locationPath text nested)
      (if Parse.startsCall (c :: rest) then Parse.filterExpr reader (c :: rest)
        else Parse.locationPath reader (c :: rest)) := by
  obtain ⟨word, later, hRead⟩ := exists_name_of_start (s := c :: rest) hName
  refine Agrees.after ?_ (run_get _)
  refine Agrees.after ?_ (run_name hs hRead)
  refine Agrees.after ?_ (run_moveTo hs _)
  refine Agrees.after ?_ (run_charAfterName hs hRead)
  have hCall : Parse.startsCall (c :: rest) =
      (decide ((Text.skipSpace later).head? = some '(') && !Parse.isNodeTypeName word) := by
    rw [Parse.startsCall, hRead]
    dsimp only
    rw [beq_eq_decide]
  rw [← hCall]
  by_cases hYes : Parse.startsCall (c :: rest) = true
  · rw [if_pos hYes, if_pos hYes]
    exact agrees_filterExpr h hs (hYes ▸ Parse.startsPrimary_of_isNameStart hName rest)
  · rw [if_neg hYes, if_neg hYes]
    exact agrees_locationPath h hs

theorem follows_pathExpr : Follows text (pathExpr text nested) (Parse.pathExpr reader) := by
  refine ⟨Parse.takesOff_pathExpr h.keeps, fun s hs => ?_⟩
  have hSkip := (Parse.skipSpace_suffix s).trans hs
  rw [pathExpr]
  refine Agrees.after ?_ (run_skipSpace hs)
  refine Agrees.after ?_ (run_peek hSkip)
  cases hStart : Text.skipSpace s with
  | nil =>
      rw [Parse.pathExpr, hStart]
      exact (agrees_refuse _).after (run_get _)
  | cons c rest =>
      rw [hStart] at hSkip
      rw [Parse.pathExpr_of_start hStart]
      dsimp only [List.head?_cons]
      by_cases hSlash : c = '/'
      · subst hSlash
        exact agrees_locationPath h hSkip
      rw [if_neg hSlash]
      by_cases hMark : (c = '(' || c = '"' || c = '\x27' || c = '$') = true
      · have hPrimary : Parse.startsPrimary (c :: rest) = true := startsPrimary_of_mark hMark
        rw [if_pos hMark, if_pos hPrimary]
        exact agrees_filterExpr h hSkip hPrimary
      rw [if_neg hMark]
      by_cases hDigit : c.isDigit = true
      · have hPrimary : Parse.startsPrimary (c :: rest) = true := startsPrimary_of_isDigit hDigit
        rw [if_pos hDigit, if_pos hPrimary]
        exact agrees_filterExpr h hSkip hPrimary
      rw [if_neg hDigit]
      by_cases hPoint : c = '.'
      · subst hPoint
        rw [if_pos rfl]
        refine Agrees.after ?_ (run_peekSecond hSkip)
        dsimp only [List.tail_cons]
        have hPrimary := startsPrimary_point rest
        by_cases hNext : rest.head?.any Char.isDigit = true
        · rw [hPrimary, if_pos hNext, if_pos hNext]
          exact agrees_filterExpr h hSkip (hPrimary.trans hNext)
        · rw [hPrimary, if_neg hNext, if_neg hNext]
          exact agrees_locationPath h hSkip
      rw [if_neg hPoint]
      by_cases hName : Parse.isNameStart c = true
      · have hStep : (c == '/' || Parse.startsStep (c :: rest)) = true := by
          simp [Parse.startsStep, hName]
        rw [if_pos hName, Parse.startsPrimary_of_isNameStart hName, if_pos hStep]
        exact agrees_callOrPath h hSkip hName
      rw [if_neg hName]
      by_cases hStep : (c = '*' || c = '@') = true
      · rw [if_pos hStep]
        simp only [Bool.or_eq_true, decide_eq_true_eq] at hStep
        obtain rfl | rfl := hStep <;> exact agrees_locationPath h hSkip
      · simp only [Bool.or_eq_true, decide_eq_true_eq, not_or] at hMark hStep
        have hNotPrimary : Parse.startsPrimary (c :: rest) ≠ true := by
          intro hPrimary
          have hCases := startsPrimary_cases hPrimary
          tauto
        have hNotStep : (c == '/' || Parse.startsStep (c :: rest)) ≠ true := by
          simp [Parse.startsStep, hSlash, hName, hStep, hPoint]
        rw [if_neg (by simpa using hStep), if_neg hNotPrimary, if_neg hNotStep]
        exact (agrees_refuse _).after (run_get _)

end Nested

section Operators

variable {text s : List Char}

/-- Whether a scan for an operator gives what a reader gives. -/
def FollowsOperator (text : List Char) (operator? : Scan (Option Parse.Operator))
    (reader : Parse.OperatorReader) : Prop :=
  ∀ s, s <:+ text → operator?.run (placeOf text s) = .ok (operatorAt text s (reader s))

theorem followsOperator_or : FollowsOperator text (orOperator? text) Parse.orOperator? :=
  fun _ hs => run_wordOperator? _ _ hs

theorem followsOperator_and : FollowsOperator text (andOperator? text) Parse.andOperator? :=
  fun _ hs => run_wordOperator? _ _ hs

theorem run_advance_operator {word rest : List Char} {count : Nat} (operator : Parse.Operator)
    (hs : word ++ rest <:+ text) (hCount : Text.byteLength word = count) :
    (do advance text count; return some operator : Scan _).run (placeOf text (word ++ rest)) =
      .ok (some operator, placeOf text rest) := by
  rw [run_bind_of_ok (run_advance hs hCount)]
  rfl

theorem run_next_operator {c : Char} {rest : List Char} (operator : Parse.Operator)
    (hs : c :: rest <:+ text) :
    (do let _ ← next text; return some operator : Scan _).run (placeOf text (c :: rest)) =
      .ok (some operator, placeOf text rest) := by
  rw [run_bind_of_ok (run_next hs)]
  rfl

theorem followsOperator_equality :
    FollowsOperator text (equalityOperator? text) Parse.equalityOperator? := by
  intro s hs
  rw [equalityOperator?]
  refine run_if_peekBytes hs rfl nofun (fun rest hStart => ?_) fun hNotTwo => ?_
  · subst hStart
    exact run_advance_operator _ hs rfl
  refine run_if_peek hs (fun rest hStart => ?_) fun hNotOne => ?_
  · subst hStart
    exact run_next_operator _ hs
  · rw [Parse.equalityOperator?.eq_def]
    split
    · rename_i rest
      exact absurd ⟨rest, rfl⟩ hNotTwo
    · exact absurd rfl hNotOne
    · rfl

/-- A character that does not make a word of two with the next one. -/
theorem head?_ne_of_not_prefix {c d : Char} {rest : List Char} (h : ¬[c, d] <+: c :: rest) :
    rest.head? ≠ some d := by
  intro hHead
  obtain ⟨inner, rfl⟩ := List.head?_eq_some_iff.1 hHead
  exact h ⟨inner, rfl⟩

theorem followsOperator_relational :
    FollowsOperator text (relationalOperator? text) Parse.relationalOperator? := by
  intro s hs
  rw [relationalOperator?, run_bind_of_ok (run_remaining hs)]
  refine run_if_prefix (fun rest hStart => ?_) fun hNotLessOrEqual => ?_
  · subst hStart
    exact run_advance_operator _ hs rfl
  refine run_if_prefix (fun rest hStart => ?_) fun hNotGreaterOrEqual => ?_
  · subst hStart
    exact run_advance_operator _ hs rfl
  refine run_if_prefix (fun rest hStart => ?_) fun hNotLess => ?_
  · subst hStart
    have hOne : rest.head? ≠ some '=' := head?_ne_of_not_prefix hNotLessOrEqual
    rw [List.singleton_append, Parse.relationalOperator?_sign .less hOne]
    exact run_advance_operator _ hs rfl
  refine run_if_prefix (fun rest hStart => ?_) fun hNotGreater => ?_
  · subst hStart
    have hOne : rest.head? ≠ some '=' := head?_ne_of_not_prefix hNotGreaterOrEqual
    rw [List.singleton_append, Parse.relationalOperator?_sign .greater hOne]
    exact run_advance_operator _ hs rfl
  · have hNone : ∀ c : Char, ¬[c] <+: s → s.head? ≠ some c := by
      intro c hNot hHead
      obtain ⟨rest, rfl⟩ := List.head?_eq_some_iff.1 hHead
      exact hNot ⟨rest, rfl⟩
    rw [Parse.relationalOperator?_of_not_sign fun c _ _ hSign => by
      cases hSign with
      | less => exact hNone _ hNotLess
      | greater => exact hNone _ hNotGreater]
    rfl

theorem followsOperator_additive :
    FollowsOperator text (additiveOperator? text) Parse.additiveOperator? := by
  intro s hs
  rw [additiveOperator?, run_bind_of_ok (run_peek hs)]
  by_cases hPlus : s.head? = some '+'
  · obtain ⟨rest, rfl⟩ := List.head?_eq_some_iff.1 hPlus
    rw [if_pos hPlus]
    exact run_next_operator _ hs
  rw [if_neg hPlus]
  by_cases hMinus : s.head? = some '-'
  · obtain ⟨rest, rfl⟩ := List.head?_eq_some_iff.1 hMinus
    rw [if_pos hMinus]
    exact run_next_operator _ hs
  · rw [if_neg hMinus, Parse.additiveOperator?.eq_def]
    split
    · exact absurd rfl hPlus
    · exact absurd rfl hMinus
    · rfl

theorem followsOperator_multiplicative :
    FollowsOperator text (multiplicativeOperator? text) Parse.multiplicativeOperator? := by
  intro s hs
  rw [multiplicativeOperator?]
  refine run_if_peek hs (fun rest hStart => ?_) fun hOther => ?_
  · subst hStart
    exact run_next_operator _ hs
  · rw [Parse.multiplicativeOperator?_of_head?_ne hOther]
    have hDivide := run_wordOperator? ['d', 'i', 'v'] (.arithmetic .divide) hs
    cases hWord : Parse.keyword? ['d', 'i', 'v'] s with
    | some rest =>
        rw [hWord] at hDivide
        rw [run_bind_of_ok hDivide]
        rfl
    | none =>
        rw [hWord] at hDivide
        rw [run_bind_of_ok hDivide]
        exact run_wordOperator? _ _ hs

theorem followsOperator_union : FollowsOperator text (unionOperator? text) Parse.unionOperator? := by
  intro s hs
  rw [unionOperator?]
  refine run_if_peek hs (fun rest hStart => ?_) fun hOther => ?_
  · subst hStart
    exact run_next_operator _ hs
  · rw [Parse.unionOperator?.eq_def]
    split
    · exact absurd rfl hOther
    · rfl

end Operators

section Levels

variable {text : List Char} {operator? : Scan (Option Parse.Operator)}
  {operatorReader : Parse.OperatorReader} {operand nested : Scan Expr}
  {operandReader reader : Parse.Reader Expr}

theorem agrees_chainWithin (hOperator : FollowsOperator text operator? operatorReader)
    (hShortens : Parse.Shortens operatorReader) (h : Follows text operand operandReader)
    {bound bound' : Nat} {s : List Char} (hs : s <:+ text) (left : Expr) (hBound : s.length < bound)
    (hBound' : s.length < bound') :
    Agrees text s (chainWithin text operator? operand bound left)
      (Parse.chainWithin operatorReader operandReader bound' left s) := by
  induction bound generalizing bound' s left with
  | zero => exact absurd hBound (Nat.not_lt_zero _)
  | succ bound ih =>
      obtain ⟨bound', rfl⟩ : ∃ less, bound' = less + 1 := ⟨bound' - 1, by omega⟩
      have hSkip := (Parse.skipSpace_suffix s).trans hs
      have hRun := hOperator _ hSkip
      rw [chainWithin]
      refine Agrees.after ?_ (run_skipSpace hs)
      cases hRead : operatorReader (Text.skipSpace s) with
      | none =>
          rw [hRead] at hRun
          rw [Parse.chainWithin_of_none hRead]
          refine Agrees.after ?_ hRun
          exact agrees_ok _
      | some read =>
          obtain ⟨operator, rest⟩ := read
          have hRest := (hShortens _ _ _ hRead).1.trans hSkip
          have hShorter := Parse.length_lt_of_operator hShortens hRead
          rw [hRead] at hRun
          rw [Parse.chainWithin_of_some hRead]
          refine Agrees.after ?_ hRun
          refine h.bind hRest fun right later hLater => ?_
          have hLonger := hLater.length_le
          exact ih (hLater.trans hRest) _ (by omega) (by omega)

theorem Follows.chain (h : Follows text operand operandReader)
    (hOperator : FollowsOperator text operator? operatorReader)
    (hShortens : Parse.Shortens operatorReader) :
    Follows text (chain text operator? operand) (Parse.chain operatorReader operandReader) := by
  refine ⟨Parse.takesOff_chain hShortens h.keeps, fun s hs => ?_⟩
  refine h.bind hs fun first rest hRest => ?_
  have hRest := hRest.trans hs
  exact agrees_chainWithin hOperator hShortens h hRest first (Nat.lt_succ_of_le hRest.length_le)
    (Nat.lt_succ_self rest.length)

theorem Follows.binaryLevels (h : Follows text operand operandReader) :
    Follows text (binaryLevels text operand) (Parse.binaryLevels operandReader) :=
  (((((h.chain followsOperator_multiplicative Parse.shortens_multiplicativeOperator).chain
    followsOperator_additive Parse.shortens_additiveOperator).chain
    followsOperator_relational Parse.shortens_relationalOperator).chain
    followsOperator_equality Parse.shortens_equalityOperator).chain
    followsOperator_and Parse.shortens_andOperator).chain
    followsOperator_or Parse.shortens_orOperator

theorem follows_tooDeep : Follows text tooDeep Parse.tooDeep :=
  ⟨Parse.takesOff_tooDeep, fun _ _ => (agrees_refuse _).after (run_get _)⟩

theorem follows_signed (hOperand : Follows text operand operandReader)
    (h : Follows text nested reader) :
    Follows text (signed text operand nested) (Parse.signed operandReader reader) := by
  refine ⟨Parse.takesOff_signed hOperand.keeps h.keeps, fun s hs => ?_⟩
  have hSkip := (Parse.skipSpace_suffix s).trans hs
  rw [signed]
  refine Agrees.after ?_ (run_skipSpace hs)
  refine agrees_if_peek hSkip (fun rest hStart => ?_) fun hOther => ?_
  · have hRest := (Parse.suffix_of_skipSpace_eq_cons hStart).trans hs
    rw [Parse.signed_of_minus hStart]
    rw [hStart] at hSkip ⊢
    refine Agrees.after ?_ (run_next hSkip)
    exact hOperand.bind hRest fun _ _ _ => agrees_ok _
  · rw [Parse.signed_of_head?_ne hOther]
    exact ((follows_pathExpr h).chain followsOperator_union Parse.shortens_unionOperator).agrees _ hSkip

theorem follows_unary (levels : Nat) :
    Follows text (unary text levels) (Parse.unary levels) := by
  induction levels with
  | zero => exact follows_signed follows_tooDeep follows_tooDeep
  | succ levels ih => exact follows_signed ih ih.binaryLevels

theorem follows_expression (levels : Nat) :
    Follows text (expression text levels) (Parse.expression levels) := by
  cases levels with
  | zero => exact follows_tooDeep
  | succ levels => exact (follows_unary levels).binaryLevels

end Levels

section Whole

/-- A whole reading leaves nothing but white space. -/
theorem map_whole_eq (s : List Char) :
    ((Parse.whole s).map fun expr => (expr, ([] : List Char))) =
      Parse.expression Parse.maxNesting s >>= fun read =>
        match Text.skipSpace read.2 with
        | [] => .ok (read.1, [])
        | c :: rest => .error ⟨.unexpectedChar c, c :: rest⟩ := by
  rw [Parse.whole]
  cases Parse.expression Parse.maxNesting s with
  | error fault => rfl
  | ok read =>
      obtain ⟨expr, rest⟩ := read
      simp only [bind, Except.bind]
      cases Text.skipSpace rest <;> rfl

theorem agrees_whole (text : List Char) :
    Agrees text text (whole text) ((Parse.whole text).map fun expr => (expr, [])) := by
  rw [map_whole_eq, whole]
  refine (follows_expression Parse.maxNesting).bind (List.suffix_refl text) fun expr rest hRest => ?_
  have hSkip := (Parse.skipSpace_suffix rest).trans hRest
  refine Agrees.after ?_ (run_skipSpace hRest)
  refine Agrees.after ?_ (run_peek hSkip)
  dsimp only
  cases Text.skipSpace rest with
  | nil =>
      refine Agrees.after ?_ (run_get _)
      rw [Text.placeOf_nil, if_pos (Nat.le_refl _)]
      exact agrees_ok expr
  | cons c later => exact (agrees_refuse _).after (run_get _)

end Whole

/-- The cursor goes to the valid positions of a text and to no other place. -/
theorem moveTo_eq (text : String) (place start : Nat) :
    (moveTo text.toList place).run start =
      if String.Pos.Raw.IsValid text ⟨place⟩ then .ok ((), place) else .error (.outOfText place) := by
  have hValid : (Text.charactersFrom? place text.toList).isSome = true ↔
      String.Pos.Raw.IsValid text ⟨place⟩ := Text.isSome_charactersFrom?_iff
  rw [moveTo, StateT.run_bind, charactersFrom]
  cases hFrom : Text.charactersFrom? place text.toList with
  | none =>
      rw [if_neg fun h => by simpa [hFrom] using hValid.2 h]
      rfl
  | some s =>
      rw [if_pos (hValid.1 (by rw [hFrom]; rfl))]
      rfl

/-- Pieces are cut out between valid positions only. -/
theorem exists_charactersBetween_iff (text : String) (start stop place : Nat) :
    (∃ piece, (charactersBetween text.toList start stop).run place = .ok (piece, place)) ↔
      String.Pos.Raw.IsValid text ⟨start⟩ ∧ String.Pos.Raw.IsValid text ⟨stop⟩ ∧ start ≤ stop := by
  rw [← Text.isSome_charactersBetween?_iff, charactersBetween]
  cases Text.charactersBetween? start stop text.toList with
  | none =>
      refine iff_of_false ?_ Bool.false_ne_true
      rintro ⟨_, ⟨⟩⟩
  | some piece => exact iff_of_true ⟨piece, rfl⟩ rfl

end Scan

/-- A scan gives the same expression as the reading, with the cursor at the end, or refuses the text
with the same error. -/
theorem scan_eq (text : String) :
    scan text =
      match parse text with
      | .ok expr => .ok (expr, text.utf8ByteSize)
      | .error e => .error (.refused e) := by
  have hWhole := Scan.agrees_whole text.toList
  rw [Scan.Agrees, Text.placeOf_self] at hWhole
  rw [scan, hWhole, parse]
  cases Parse.whole text.toList with
  | ok expr =>
      change Except.ok (expr, placeOf text.toList []) = _
      rw [Text.placeOf_nil, Text.byteLength_toList]
  | error fault => rfl

/-- White space at the end is taken with the expression. -/
theorem scan_expression_of_parse {text : String} {expr : Expr} (h : parse text = .ok expr) :
    (Scan.expression text.toList Parse.maxNesting).run 0 = .ok (expr, text.utf8ByteSize) := by
  have hAgrees := (Scan.follows_expression Parse.maxNesting).agrees _ (List.suffix_refl text.toList)
  rw [Scan.Agrees, Text.placeOf_self, Parse.expression_of_parse h] at hAgrees
  rw [hAgrees, Scan.outcomeAt, Text.placeOf_nil, Text.byteLength_toList]

/-- A fault shows at an end of the text. -/
theorem failsWith_whole (s : List Char) :
    FailsWith (Parse.whole s) fun fault => fault.rest <:+ s := by
  have hKeeps := Parse.takesOff_expression Parse.maxNesting s
  refine hKeeps.place.bind fun read hRead => ?_
  have hSkip := (Parse.skipSpace_suffix read.2).trans (hKeeps.rest read hRead)
  dsimp only
  split
  · exact failsWith_ok _
  · rename_i c rest hStart
    rintro _ ⟨⟩
    exact hStart ▸ hSkip

/-- An error has a valid position. -/
theorem position_of_parse {text : String} {e : ParseError} (h : parse text = .error e) :
    e.position ≤ text.utf8ByteSize ∧ String.Pos.Raw.IsValid text ⟨e.position⟩ := by
  rw [parse] at h
  split at h
  · cases h
  · rename_i fault hWhole
    cases h
    have hSuffix := failsWith_whole text.toList fault hWhole
    refine ⟨Text.byteLength_toList text ▸ Text.placeOf_le, Text.isSome_charactersFrom?_iff.1 ?_⟩
    exact Option.isSome_of_eq_some (Text.charactersFrom?_placeOf hSuffix)

/-- Every text is scanned to an answer.  The cursor only goes to valid positions and pieces are only
cut out between these; a scan would halt at any other place, where a loop has used up its rounds, at a
call that is unknown or lacks an argument, and if it found no literal where one must be.  It does not:
either it ends with the expression behind the last byte, or the text is refused at a valid position. -/
theorem scan_answers (text : String) :
    (∀ place start, (Scan.moveTo text.toList place).run start =
      if String.Pos.Raw.IsValid text ⟨place⟩ then .ok ((), place) else .error (.outOfText place)) ∧
    (∀ start stop place,
      (∃ piece, (Scan.charactersBetween text.toList start stop).run place = .ok (piece, place)) ↔
        String.Pos.Raw.IsValid text ⟨start⟩ ∧ String.Pos.Raw.IsValid text ⟨stop⟩ ∧ start ≤ stop) ∧
    (∀ halt, scan text = .error halt → ∃ e, halt = .refused e ∧ parse text = .error e) ∧
    (∀ expr, parse text = .ok expr →
      scan text = .ok (expr, text.utf8ByteSize) ∧
      (Scan.expression text.toList Parse.maxNesting).run 0 = .ok (expr, text.utf8ByteSize)) ∧
    (∀ e, parse text = .error e →
      scan text = .error (.refused e) ∧
      e.position ≤ text.utf8ByteSize ∧ String.Pos.Raw.IsValid text ⟨e.position⟩) := by
  have hScan := scan_eq text
  refine ⟨Scan.moveTo_eq text, Scan.exists_charactersBetween_iff text, fun halt hHalt => ?_,
    fun expr h => ⟨?_, scan_expression_of_parse h⟩, fun e h => ⟨?_, position_of_parse h⟩⟩
  · rw [hHalt] at hScan
    cases hParse : parse text with
    | ok expr =>
        rw [hParse] at hScan
        cases hScan
    | error e =>
        rw [hParse] at hScan
        cases hScan
        exact ⟨e, rfl, rfl⟩
  · rw [hScan, h]
  · rw [hScan, h]

end CborPath
