import CborPath.Proofs.Query.Settling

/-!
# Steps as they are written

A step is written as one point or two, or with an axis, a node test and predicates; one slash or two
join it to what comes before.  A path of such steps is settled by the predicates in it: nothing else
about a path takes a level of nesting, and neither does its length.
-/

namespace CborPath

open Text (skipSpace)

/-- How a step that is not abbreviated says where it looks. -/
inductive AxisMark
  | omitted
  | sign
  | named (axis : Axis)

/-- Where a step with a mark looks. -/
def AxisMark.axis : AxisMark → Axis
  | omitted => .child
  | sign => .attributes
  | named axis => axis

/-- The text of a mark. -/
def AxisMark.text : AxisMark → List Char
  | omitted => []
  | sign => ['@']
  | named axis => axis.name.toList ++ [':', ':']

/-- A step as it is written, with predicates of some kind. -/
inductive StepForm (α : Type)
  | self
  | parent
  | select (mark : AxisMark) (test : NodeTest) (isWritable : test.isWritable = true)
      (predicates : List α)

/-- A step that is led by one slash or by two. -/
structure JoinedStep (α : Type) where
  doubled : Bool
  form : StepForm α

/-- A path as it is written. -/
inductive PathForm (α : Type)
  | relative (first : StepForm α) (others : List (JoinedStep α))
  | absolute (first : JoinedStep α) (others : List (JoinedStep α))

section Predicates

variable {α β : Type}

/-- The predicates of a step. -/
def StepForm.predicates : StepForm α → List α
  | self | parent => []
  | select _ _ _ predicates => predicates

/-- The predicates of joined steps. -/
def joinedPredicates (steps : List (JoinedStep α)) : List α :=
  steps.flatMap fun step => step.form.predicates

/-- The predicates of a path. -/
def PathForm.predicates : PathForm α → List α
  | relative first others => first.predicates ++ joinedPredicates others
  | absolute first others => joinedPredicates (first :: others)

/-- A step with other predicates. -/
def StepForm.map (f : α → β) : StepForm α → StepForm β
  | self => self
  | parent => parent
  | select mark test isWritable predicates => select mark test isWritable (predicates.map f)

/-- A joined step with other predicates. -/
def JoinedStep.map (f : α → β) (step : JoinedStep α) : JoinedStep β :=
  ⟨step.doubled, step.form.map f⟩

/-- A path with other predicates. -/
def PathForm.map (f : α → β) : PathForm α → PathForm β
  | relative first others => relative (first.map f) (others.map (JoinedStep.map f))
  | absolute first others => absolute (first.map f) (others.map (JoinedStep.map f))

variable (f : α → β)

theorem StepForm.predicates_map (form : StepForm α) :
    (form.map f).predicates = form.predicates.map f := by
  cases form <;> rfl

theorem joinedPredicates_map (steps : List (JoinedStep α)) :
    joinedPredicates (steps.map (JoinedStep.map f)) = (joinedPredicates steps).map f := by
  rw [joinedPredicates, joinedPredicates, List.flatMap_map, List.map_flatMap]
  exact congrArg (List.flatMap · steps) (funext fun step => step.form.predicates_map f)

theorem PathForm.predicates_map (path : PathForm α) :
    (path.map f).predicates = path.predicates.map f := by
  cases path with
  | relative first others =>
      rw [map, predicates, predicates, first.predicates_map, joinedPredicates_map, List.map_append]
  | absolute first others => exact joinedPredicates_map f (first :: others)

end Predicates

section Text

open Parse (Part bracketed meanings)

/-- The text of a step. -/
def StepForm.text : StepForm Part → List Char
  | self => ['.']
  | parent => ['.', '.']
  | select mark test _ predicates => mark.text ++ (test.written ++ bracketed predicates)

/-- What a step stands for. -/
def StepForm.step : StepForm Part → Step
  | self => .self
  | parent => .parent
  | select mark test _ predicates => .mk mark.axis test (meanings predicates)

/-- The text of a joined step. -/
def JoinedStep.text (step : JoinedStep Part) : List Char :=
  if step.doubled then '/' :: '/' :: step.form.text else '/' :: step.form.text

/-- What a joined step stands for: two slashes are a step of their own. -/
def JoinedStep.steps (step : JoinedStep Part) : List Step :=
  if step.doubled then [.descendantOrSelf, step.form.step] else [step.form.step]

/-- The text of joined steps. -/
def joinedText (steps : List (JoinedStep Part)) : List Char :=
  steps.flatMap JoinedStep.text

/-- What joined steps stand for. -/
def joinedSteps (steps : List (JoinedStep Part)) : List Step :=
  steps.flatMap JoinedStep.steps

/-- The text of a path. -/
def PathForm.text : PathForm Part → List Char
  | relative first others => first.text ++ joinedText others
  | absolute first others => joinedText (first :: others)

/-- What a path stands for. -/
def PathForm.expr : PathForm Part → Expr
  | relative first others => .path false (first.step :: joinedSteps others)
  | absolute first others => .path true (joinedSteps (first :: others))

/-- A step begins with a character that is neither white space nor a slash. -/
theorem StepForm.exists_text_eq_cons (form : StepForm Part) :
    ∃ c others, form.text = c :: others ∧ Text.isSpace c = false ∧ c ≠ '/' ∧
      ∀ rest, Parse.startsStep (c :: rest) = true := by
  cases form with
  | self => exact ⟨'.', _, rfl, rfl, by decide, fun _ => rfl⟩
  | parent => exact ⟨'.', _, rfl, rfl, by decide, fun _ => rfl⟩
  | select mark test hTest predicates =>
      cases mark with
      | sign => exact ⟨'@', _, rfl, rfl, by decide, fun _ => rfl⟩
      | named axis => cases axis <;> exact ⟨_, _, rfl, rfl, by decide, fun _ => rfl⟩
      | omitted =>
          cases test with
          | anyElement => exact ⟨'*', _, rfl, rfl, by decide, fun _ => rfl⟩
          | anyNode => exact ⟨'n', _, rfl, rfl, by decide, fun _ => rfl⟩
          | anyText => exact ⟨'t', _, rfl, rfl, by decide, fun _ => rfl⟩
          | named word =>
              obtain ⟨c, others, hWord, hStart⟩ := Parse.exists_toList_eq_cons_of_isName hTest
              refine ⟨c, others ++ bracketed predicates, ?_, Parse.isSpace_of_isNameStart hStart,
                Parse.ne_of_isNameStart hStart (by decide), fun rest => ?_⟩
              · rw [text, AxisMark.text, NodeTest.written, hWord]
                rfl
              · simp [Parse.startsStep, hStart]

theorem JoinedStep.exists_text_append_eq (step : JoinedStep Part) (s : List Char) :
    ∃ others, step.text ++ s = '/' :: others := by
  rw [JoinedStep.text]
  split
  · exact ⟨_, rfl⟩
  · exact ⟨_, rfl⟩

end Text

namespace Parse

section Steps

variable {nested : Reader Expr} {rest s : List Char} {parts : List Part}

theorem endsTest_bracketed (parts : List Part) (hRest : EndsTest rest) :
    EndsTest (bracketed parts ++ rest) := by
  cases parts with
  | nil => exact hRest
  | cons part parts =>
      rw [bracketed_cons_append]
      exact (goesOn_cons (List.mem_cons_self ..) _ : GoesOn testEnds _).endsTest

/-- A step with a node test is read by its other parts. -/
theorem step_select (mark : AxisMark) {test : NodeTest} (hTest : test.isWritable = true)
    (hRest : EndsTest s) :
    step nested (mark.text ++ (test.written ++ s)) = (do
      let (predicates, rest) ← predicates nested s
      return (.mk mark.axis test predicates, rest)) := by
  have hRead := nodeTest_written hTest hRest
  cases mark with
  | omitted => exact step_child hTest hRest
  | sign =>
      show nodeTest (test.written ++ s) >>= _ = _
      rw [hRead]
      rfl
  | named axis =>
      rw [AxisMark.text, List.append_assoc, List.cons_append, List.cons_append, List.nil_append,
        step_axis, hRead]
      rfl

/-- A step is settled by its predicates. -/
theorem settles_step {form : StepForm Part} (hKeeps : TakesOff nested)
    (hParts : AdmitsAll nested form.predicates) (hRest : EndsTest rest)
    (hBracket : (skipSpace rest).head? ≠ some '[') :
    ∃ left, skipSpace left = skipSpace rest ∧
      Settles (AllFit nested form.predicates) (step nested (form.text ++ rest)) (form.step, left) := by
  cases form with
  | self =>
      exact ⟨rest, rfl, fun _ => step_of_point rfl hRest.head?_ne_point,
        fun hNot => absurd allFit_nil hNot⟩
  | parent => exact ⟨rest, rfl, fun _ => step_of_points rfl, fun hNot => absurd allFit_nil hNot⟩
  | select mark test hTest predicates =>
      refine ⟨skipSpace rest, Text.skipSpace_skipSpace rest, ?_⟩
      rw [StepForm.text, List.append_assoc, List.append_assoc,
        step_select mark hTest (endsTest_bracketed _ hRest)]
      exact (settles_predicates hKeeps hParts hBracket).bind_ok rfl

theorem pathTail_skipSpace (hKeeps : TakesOff nested) (s : List Char) :
    pathTail nested (skipSpace s) = pathTail nested s := by
  have hSkip := Text.skipSpace_skipSpace s
  rcases twice_or_once_or_not '/' (skipSpace s) with ⟨inner, hStart⟩ | ⟨inner, hStart, hOne⟩ | hNone
  · rw [pathTail_of_slashes hKeeps hStart, pathTail_of_slashes hKeeps (hSkip.trans hStart)]
  · rw [pathTail_of_slash hKeeps hStart hOne, pathTail_of_slash hKeeps (hSkip.trans hStart) hOne]
  · rw [pathTail_of_head?_ne hNone, pathTail_of_head?_ne (by rwa [hSkip]), hSkip]

theorem joinedText_cons_append (step : JoinedStep Part) (steps : List (JoinedStep Part))
    (rest : List Char) :
    joinedText (step :: steps) ++ rest = step.text ++ (joinedText steps ++ rest) := by
  rw [joinedText, List.flatMap_cons, List.append_assoc]
  rfl

theorem endsTest_joinedText (steps : List (JoinedStep Part)) (hRest : EndsTest rest)
    (hBracket : (skipSpace rest).head? ≠ some '[') :
    EndsTest (joinedText steps ++ rest) ∧ (skipSpace (joinedText steps ++ rest)).head? ≠ some '[' := by
  cases steps with
  | nil => exact ⟨hRest, hBracket⟩
  | cons step steps =>
      obtain ⟨others, hText⟩ := step.exists_text_append_eq (joinedText steps ++ rest)
      rw [joinedText_cons_append, hText]
      exact ⟨(goesOn_cons (by decide) _ : GoesOn testEnds _).endsTest,
        head?_cons_ne (by decide) _⟩

/-- Joined steps are read one after the other. -/
theorem pathTail_joined (hKeeps : TakesOff nested) (joined : JoinedStep Part) (s : List Char) :
    pathTail nested (joined.text ++ s) = (do
      let (next, rest) ← step nested (joined.form.text ++ s)
      let (others, rest) ← pathTail nested rest
      return (if joined.doubled then .descendantOrSelf :: next :: others else next :: others, rest)) := by
  obtain ⟨doubled, form⟩ := joined
  cases doubled with
  | true => exact pathTail_of_slashes hKeeps rfl
  | false =>
      obtain ⟨c, others, hText, -, hSlash, -⟩ := form.exists_text_eq_cons
      have hOne : (form.text ++ s).head? ≠ some '/' := by
        rw [hText]
        exact head?_cons_ne hSlash _
      exact pathTail_of_slash hKeeps rfl hOne

/-- A step comes before the joined ones after it. -/
theorem settles_step_bind {β : Type} {form : StepForm Part} {steps : List (JoinedStep Part)} {y : β}
    (next : Step → List Step × List Char → Except Fault β) (hKeeps : TakesOff nested)
    (hFirst : AdmitsAll nested form.predicates) (hRest : EndsTest rest)
    (hBracket : (skipSpace rest).head? ≠ some '[')
    (hTail : Settles (AllFit nested (joinedPredicates steps))
      (pathTail nested (joinedText steps ++ rest)) (joinedSteps steps, skipSpace rest))
    (hNext : next form.step (joinedSteps steps, skipSpace rest) = .ok y) :
    Settles (AllFit nested (form.predicates ++ joinedPredicates steps))
      (step nested (form.text ++ (joinedText steps ++ rest)) >>= fun read =>
        pathTail nested read.2 >>= next read.1) y := by
  obtain ⟨hEnds, hNone⟩ := endsTest_joinedText steps hRest hBracket
  obtain ⟨left, hLeft, hStep⟩ := settles_step hKeeps hFirst hEnds hNone
  refine (hStep.bind ?_).congr List.forall_mem_append.symm
  dsimp only
  rw [← pathTail_skipSpace hKeeps, hLeft, pathTail_skipSpace hKeeps]
  exact hTail.bind_ok hNext

/-- Joined steps are settled one after the other. -/
theorem settles_pathTail {steps : List (JoinedStep Part)} (hKeeps : TakesOff nested)
    (hParts : AdmitsAll nested (joinedPredicates steps)) (hRest : EndsTest rest)
    (hBracket : (skipSpace rest).head? ≠ some '[') (hSlash : (skipSpace rest).head? ≠ some '/') :
    Settles (AllFit nested (joinedPredicates steps)) (pathTail nested (joinedText steps ++ rest))
      (joinedSteps steps, skipSpace rest) := by
  induction steps with
  | nil => exact ⟨fun _ => pathTail_of_head?_ne hSlash, fun hNot => absurd allFit_nil hNot⟩
  | cons joined steps ih =>
      obtain ⟨hFirst, hOthers⟩ := List.forall_mem_append.1 hParts
      rw [joinedText_cons_append, pathTail_joined hKeeps]
      refine settles_step_bind (fun next read => .ok (if joined.doubled then
        .descendantOrSelf :: next :: read.1 else next :: read.1, read.2)) hKeeps hFirst hRest hBracket
        (ih hOthers) ?_
      obtain ⟨doubled, form⟩ := joined
      cases doubled <;> rfl

/-- A step and joined ones are settled by their predicates. -/
theorem settles_relativePath {first : StepForm Part} {others : List (JoinedStep Part)}
    (hKeeps : TakesOff nested) (hParts : AdmitsAll nested (first.predicates ++ joinedPredicates others))
    (hRest : EndsTest rest) (hBracket : (skipSpace rest).head? ≠ some '[')
    (hSlash : (skipSpace rest).head? ≠ some '/') :
    Settles (AllFit nested (first.predicates ++ joinedPredicates others))
      (relativePath nested (first.text ++ (joinedText others ++ rest)))
      (first.step :: joinedSteps others, skipSpace rest) := by
  obtain ⟨hFirst, hOthers⟩ := List.forall_mem_append.1 hParts
  exact settles_step_bind (fun next read => .ok (next :: read.1, read.2)) hKeeps hFirst hRest hBracket
    (settles_pathTail hKeeps hOthers hRest hBracket hSlash) rfl

end Steps

section Path

variable {nested : Reader Expr} {rest s : List Char}

/-- A name where no call begins is the first step of a path. -/
theorem startsPrimary_name {word : String} (hName : isName word.toList = true) (hRest : EndsTest s) :
    startsPrimary (word.toList ++ s) = false := by
  obtain ⟨c, others, hWord, hStart⟩ := exists_toList_eq_cons_of_isName hName
  have hRead : name (word.toList ++ s) = .ok (word, s) := name_eq_ok_iff.2 ⟨rfl, hName, hRest.name⟩
  have hCall : startsCall (word.toList ++ s) = false := by
    rw [startsCall, hRead]
    exact Bool.and_eq_false_imp.2 fun hHead => absurd (eq_of_beq hHead) hRest.call
  rw [hWord, List.cons_append] at hCall ⊢
  rw [startsPrimary_of_isNameStart hStart, hCall]

/-- Where no digit goes on, a point is no number. -/
theorem startsPrimary_point (hRest : EndsTest s) :
    startsPrimary ('.' :: s) = false := by
  rw [startsPrimary, hRest.any_isDigit_eq]
  rfl

/-- No step begins as a primary expression does. -/
theorem startsPrimary_form (form : StepForm Part) (hRest : EndsTest s) :
    startsPrimary (form.text ++ s) = false := by
  cases form with
  | self => exact startsPrimary_point hRest
  | parent => rfl
  | select mark test hTest predicates =>
      cases mark with
      | sign => rfl
      | named axis =>
          rw [StepForm.text, AxisMark.text]
          cases axis <;> rfl
      | omitted =>
          cases test with
          | anyElement => rfl
          | anyNode => rfl
          | anyText => rfl
          | named word =>
              show startsPrimary (word.toList ++ bracketed predicates ++ s) = false
              rw [List.append_assoc]
              exact startsPrimary_name hTest (endsTest_bracketed predicates hRest)

/-- What begins with a step is a path from the context node. -/
theorem pathExpr_form (form : StepForm Part) (hRest : EndsTest s) :
    pathExpr nested (form.text ++ s) = (do
      let (steps, rest) ← relativePath nested (form.text ++ s)
      return (.path false steps, rest)) := by
  obtain ⟨c, others, hText, hSpace, hSlash, hStep⟩ := form.exists_text_eq_cons
  have hPrimary := startsPrimary_form form hRest
  rw [hText, List.cons_append] at hPrimary ⊢
  rw [pathExpr_of_start (Text.skipSpace_cons_of_not_isSpace hSpace _), hPrimary, hStep, Bool.or_true,
    ← locationPath_of_head?_ne (head?_cons_ne hSlash _)]
  rfl

/-- What begins with a joined step is a path from the root. -/
theorem pathExpr_joined (joined : JoinedStep Part) (s : List Char) :
    pathExpr nested (joined.text ++ s) = (do
      let (steps, rest) ← relativePath nested (joined.form.text ++ s)
      return (.path true (if joined.doubled then .descendantOrSelf :: steps else steps), rest)) := by
  obtain ⟨doubled, form⟩ := joined
  cases doubled with
  | true => rfl
  | false =>
      obtain ⟨c, others, hText, hSpace, hSlash, hStep⟩ := form.exists_text_eq_cons
      show pathExpr nested ('/' :: (form.text ++ s)) = _
      rw [hText, List.cons_append, pathExpr_slash, locationPath_of_slash (head?_cons_ne hSlash _),
        Text.skipSpace_cons_of_not_isSpace hSpace, if_pos (hStep _)]
      rfl

/-- A path is settled by its predicates. -/
theorem settles_path (path : PathForm Part) (hKeeps : TakesOff nested)
    (hParts : AdmitsAll nested path.predicates) (hRest : EndsTest rest)
    (hBracket : (skipSpace rest).head? ≠ some '[') (hSlash : (skipSpace rest).head? ≠ some '/') :
    Settles (AllFit nested path.predicates) (pathExpr nested (path.text ++ rest))
      (path.expr, skipSpace rest) := by
  cases path with
  | relative first others =>
      have hPath := settles_relativePath hKeeps hParts hRest hBracket hSlash
      rw [PathForm.text, List.append_assoc,
        pathExpr_form first (endsTest_joinedText others hRest hBracket).1]
      exact hPath.bind_ok rfl
  | absolute first others =>
      have hPath := settles_relativePath hKeeps hParts hRest hBracket hSlash
      rw [PathForm.text, joinedText_cons_append, pathExpr_joined]
      refine hPath.bind_ok ?_
      obtain ⟨doubled, form⟩ := first
      cases doubled <;> rfl

/-- What predicates and steps make of the expression that they follow. -/
def filtered (expr : Expr) (predicates : List Expr) (steps : List Step) : Expr :=
  if predicates.isEmpty && steps.isEmpty then expr else .filter expr predicates steps

/-- A primary expression is settled together with the predicates and steps that follow it. -/
theorem settles_filterExpr {fits : Prop} {expr : Expr} {parts : List Part}
    {steps : List (JoinedStep Part)}
    (h : Settles fits (primary nested s) (expr, bracketed parts ++ (joinedText steps ++ rest)))
    (hKeeps : TakesOff nested) (hParts : AdmitsAll nested (parts ++ joinedPredicates steps))
    (hRest : EndsTest rest) (hBracket : (skipSpace rest).head? ≠ some '[')
    (hSlash : (skipSpace rest).head? ≠ some '/') :
    Settles (fits ∧ AllFit nested (parts ++ joinedPredicates steps)) (filterExpr nested s)
      (filtered expr (meanings parts) (joinedSteps steps), skipSpace rest) := by
  obtain ⟨hOwn, hOthers⟩ := List.forall_mem_append.1 hParts
  have hNone := (endsTest_joinedText steps hRest hBracket).2
  refine Settles.congr ?_ (and_congr_right' List.forall_mem_append.symm)
  refine h.bind ((settles_predicates hKeeps hOwn hNone).bind ?_)
  dsimp only
  rw [pathTail_skipSpace hKeeps]
  refine (settles_pathTail hKeeps hOthers hRest hBracket hSlash).bind_ok ?_
  rw [filtered]
  split <;> rfl

end Path

end Parse

end CborPath
