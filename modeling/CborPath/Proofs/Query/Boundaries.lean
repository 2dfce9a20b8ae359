import CborPath.Proofs.Query.Rounds

/-!
# Where lexemes end

No closing bracket and no comma belongs to a lexeme or to white space.  So a lexeme that is taken off
the start of a text is taken off it as well when one of these marks follows the text, and what is left
is the same with the further text after it.
-/

namespace CborPath

open Text (skipSpace)

namespace Parse

section Lexeme

variable {more rest s inner : List Char} {c : Char} (hMore : GoesOn closers more)
include hMore

/-- A run of characters that no closer belongs to does not go on in further text. -/
theorem takeWhile_append_of_closers {p : Char → Bool} (hMarks : closers.any p = false)
    (s : List Char) :
    (s ++ more).takeWhile p = s.takeWhile p := by
  have hRun := List.all_takeWhile (p := p) (l := s)
  have hEnd : (s.dropWhile p ++ more).head?.any p = false := by
    cases hDrop : s.dropWhile p with
    | nil => exact hMore.any_eq_false hMarks
    | cons d others =>
        have hHead := List.head?_dropWhile_not p s
        rw [hDrop] at hHead
        simpa using hHead
  have hWhole := takeWhile_append_of_end hRun hEnd
  rwa [← List.append_assoc, List.takeWhile_append_dropWhile] at hWhole

theorem dropWhile_append_of_closers {p : Char → Bool} (hMarks : closers.any p = false)
    (s : List Char) :
    (s ++ more).dropWhile p = s.dropWhile p ++ more := by
  have hWhole := List.takeWhile_append_dropWhile (p := p) (l := s ++ more)
  have hOwn := List.takeWhile_append_dropWhile (p := p) (l := s)
  rw [takeWhile_append_of_closers hMore hMarks] at hWhole
  conv at hWhole => rhs; rw [← hOwn, List.append_assoc]
  exact List.append_cancel_left hWhole

theorem skipSpace_append (s : List Char) :
    skipSpace (s ++ more) = skipSpace s ++ more :=
  dropWhile_append_of_closers hMore (by decide) s

theorem skipSpace_append_eq_cons (hStart : skipSpace s = c :: inner) :
    skipSpace (s ++ more) = c :: (inner ++ more) := by
  rw [skipSpace_append hMore, hStart, List.cons_append]

theorem head?_append_any {p : Char → Bool} (hMarks : closers.any p = false) (s : List Char) :
    (s ++ more).head?.any p = s.head?.any p := by
  cases s with
  | nil => exact hMore.any_eq_false hMarks
  | cons d others => rfl

theorem head?_append_ne (hMark : c ∉ closers) (h : s.head? ≠ some c) :
    (s ++ more).head? ≠ some c := by
  cases s with
  | nil => exact hMore.head?_ne hMark
  | cons d others => exact h

theorem head?_skipSpace_append_ne (hMark : c ∉ closers) (h : (skipSpace s).head? ≠ some c) :
    (skipSpace (s ++ more)).head? ≠ some c := by
  rw [skipSpace_append hMore]
  exact head?_append_ne hMore hMark h

/-- A longer text begins with a character that is no closer only if the text does. -/
theorem exists_eq_cons_of_append (hMark : c ∉ closers) (h : s ++ more = c :: inner) :
    ∃ others, s = c :: others ∧ inner = others ++ more := by
  cases s with
  | nil => exact absurd (congrArg List.head? h) (hMore.head?_ne hMark)
  | cons d others =>
      cases h
      exact ⟨others, rfl, rfl⟩

theorem name_append {word : String} (h : name s = .ok (word, rest)) :
    name (s ++ more) = .ok (word, rest ++ more) := by
  obtain ⟨rfl, hName, hNext⟩ := name_eq_ok_iff.1 h
  refine name_eq_ok_iff.2 ⟨List.append_assoc .., hName, ?_⟩
  rw [head?_append_any hMore (by decide +kernel), hNext]

theorem name_append_of_error {fault : Fault} (h : name s = .error fault) :
    ∃ fault, name (s ++ more) = .error fault := by
  have hStart : (s ++ more).head?.any isNameStart = false := by
    rw [head?_append_any hMore (by decide +kernel)]
    cases s with
    | nil => rfl
    | cons c others =>
        rw [name] at h
        split at h
        · cases h
        · rename_i hNone
          simpa using hNone
  cases hWhole : s ++ more with
  | nil => exact ⟨_, rfl⟩
  | cons c others =>
      rw [hWhole] at hStart
      rw [name, if_neg (by simpa using hStart)]
      exact ⟨_, rfl⟩

omit hMore in
theorem textLiteral_append {quote : Char} {body : List Char} {literal : String}
    (h : textLiteral quote body = .ok (literal, rest)) :
    textLiteral quote (body ++ more) = .ok (literal, rest ++ more) := by
  obtain ⟨rfl, hAbsent⟩ := textLiteral_eq_ok_iff.1 h
  exact textLiteral_eq_ok_iff.2 ⟨by rw [List.append_assoc, List.cons_append], hAbsent⟩

theorem numberLiteral_append (s : List Char) :
    numberLiteral (s ++ more) = ((numberLiteral s).1, (numberLiteral s).2 ++ more) := by
  have hDigits : closers.any Char.isDigit = false := by decide
  rw [numberLiteral, numberLiteral, takeWhile_append_of_closers hMore hDigits,
    dropWhile_append_of_closers hMore hDigits]
  by_cases hPoint : (s.dropWhile Char.isDigit).head? = some '.'
  · obtain ⟨inner, hStart⟩ := List.head?_eq_some_iff.1 hPoint
    rw [hStart, List.cons_append]
    show (Binary64.ofDecimal false _ _, _) = (Binary64.ofDecimal false _ _, _ ++ more)
    rw [takeWhile_append_of_closers hMore hDigits, dropWhile_append_of_closers hMore hDigits]
    rfl
  · have hNone := head?_append_ne hMore (by decide) hPoint
    split
    · rename_i hStart
      exact absurd (congrArg List.head? hStart) hNone
    · split
      · rename_i hStart
        exact absurd (congrArg List.head? hStart) hPoint
      · rfl

omit hMore in
theorem axis_of_colons {word : String} (hName : name s = .ok (word, rest))
    (hColons : skipSpace rest = ':' :: ':' :: inner) :
    axis s = match Axis.ofName? word with
      | some axis => .ok (axis, inner)
      | none => .error ⟨.unknownAxis word, s⟩ := by
  rw [axis.eq_def]
  split
  · cases hName
  · rw [hName]
    dsimp only
    rw [hColons]
    rfl

omit hMore in
/-- Where no axis is named, a step looks at children. -/
theorem axis_of_not (hAttribute : s.head? ≠ some '@')
    (hNone : ∀ word rest inner, name s = .ok (word, rest) → skipSpace rest ≠ ':' :: ':' :: inner) :
    axis s = .ok (.child, s) := by
  rw [axis.eq_def]
  split
  · exact absurd rfl hAttribute
  · split
    · rfl
    · rename_i word rest hName
      split
      · rename_i inner hColons
        exact absurd hColons (hNone word rest inner hName)
      · rfl

theorem axis_append {found : Axis} (h : axis s = .ok (found, rest)) :
    axis (s ++ more) = .ok (found, rest ++ more) := by
  by_cases hAttribute : s.head? = some '@'
  · obtain ⟨inner, rfl⟩ := List.head?_eq_some_iff.1 hAttribute
    cases h
    rfl
  · by_cases hColons : ∃ word tail inner, name s = .ok (word, tail) ∧
        skipSpace tail = ':' :: ':' :: inner
    · obtain ⟨word, tail, inner, hName, hColons⟩ := hColons
      have hMoreColons := skipSpace_append_eq_cons hMore hColons
      rw [axis_of_colons hName hColons] at h
      rw [axis_of_colons (name_append hMore hName) hMoreColons]
      split at h
      · cases h
        rfl
      · cases h
    · have hNone : ∀ word tail inner, name s = .ok (word, tail) →
          skipSpace tail ≠ ':' :: ':' :: inner :=
        fun word tail inner hName hStart => hColons ⟨word, tail, inner, hName, hStart⟩
      rw [axis_of_not hAttribute hNone] at h
      obtain ⟨rfl, rfl⟩ := Prod.mk.inj (Except.ok.inj h)
      refine axis_of_not (head?_append_ne hMore (by decide) hAttribute) ?_
      intro word tail inner hName hStart
      cases hOwn : name s with
      | error fault =>
          obtain ⟨_, hOther⟩ := name_append_of_error hMore hOwn
          rw [hName] at hOther
          cases hOther
      | ok read =>
          have hWhole := name_append hMore hOwn
          rw [hName] at hWhole
          cases hWhole
          rw [skipSpace_append hMore] at hStart
          obtain ⟨first, hFirst, hInner⟩ := exists_eq_cons_of_append hMore (by decide) hStart
          obtain ⟨second, hSecond, -⟩ := exists_eq_cons_of_append hMore (by decide) hInner.symm
          exact hNone _ _ second hOwn (hFirst.trans (congrArg _ hSecond))

omit hMore in
theorem startsPrefixed_of_once (hOne : s.head? ≠ some ':') :
    startsPrefixed (':' :: s) = true := by
  rw [startsPrefixed.eq_def]
  split
  · rename_i hTwo
    cases hTwo
    exact absurd rfl hOne
  · rfl
  · rename_i hNone
    exact absurd rfl (hNone s)

omit hMore in
theorem startsPrefixed_of_head?_ne (h : s.head? ≠ some ':') :
    startsPrefixed s = false := by
  rw [startsPrefixed.eq_def]
  split
  · rfl
  · exact absurd rfl h
  · rfl

theorem startsPrefixed_append (s : List Char) :
    startsPrefixed (s ++ more) = startsPrefixed s := by
  rcases twice_or_once_or_not ':' s with ⟨inner, rfl⟩ | ⟨inner, rfl, hOne⟩ | hNone
  · rfl
  · rw [List.cons_append, startsPrefixed_of_once hOne,
      startsPrefixed_of_once (head?_append_ne hMore (by decide) hOne)]
  · rw [startsPrefixed_of_head?_ne hNone,
      startsPrefixed_of_head?_ne (head?_append_ne hMore (by decide) hNone)]

theorem expect_append {c : Char} (h : expect c s = .ok rest) :
    expect c (s ++ more) = .ok (rest ++ more) :=
  expect_eq_ok_iff.2 (skipSpace_append_eq_cons hMore (expect_eq_ok_iff.1 h))

omit hMore in
/-- A node test that is not a star begins with a name. -/
theorem nodeTest_of_name {word : String} (hName : name (skipSpace s) = .ok (word, rest)) :
    nodeTest s =
      if startsPrefixed rest then .error ⟨.namespacePrefix, rest⟩
      else
        match skipSpace rest with
        | '(' :: inner =>
            match nodeType word with
            | .error cause => .error ⟨cause, skipSpace s⟩
            | .ok test => do
                let rest ← expect ')' inner
                return (test, rest)
        | _ => .ok (.named word, rest) := by
  rw [nodeTest]
  split
  · rename_i hStar
    rw [hStar] at hName
    cases hName
  · rw [hName]
    rfl

theorem nodeTest_append {test : NodeTest} (h : nodeTest s = .ok (test, rest)) :
    nodeTest (s ++ more) = .ok (test, rest ++ more) := by
  by_cases hStar : (skipSpace s).head? = some '*'
  · obtain ⟨inner, hStart⟩ := List.head?_eq_some_iff.1 hStar
    rw [nodeTest, hStart] at h
    rw [nodeTest, skipSpace_append_eq_cons hMore hStart]
    cases h
    rfl
  · cases hName : name (skipSpace s) with
    | error fault =>
        rw [nodeTest] at h
        split at h
        · rename_i hStart
          exact absurd (congrArg List.head? hStart) hStar
        · rw [hName] at h
          cases h
    | ok read =>
        obtain ⟨word, tail⟩ := read
        have hMoreName := name_append hMore hName
        rw [← skipSpace_append hMore] at hMoreName
        rw [nodeTest_of_name hName] at h
        rw [nodeTest_of_name hMoreName, startsPrefixed_append hMore]
        split at h
        · cases h
        · rename_i hPrefix
          rw [if_neg hPrefix]
          by_cases hCall : (skipSpace tail).head? = some '('
          · obtain ⟨inner, hStart⟩ := List.head?_eq_some_iff.1 hCall
            rw [hStart] at h
            rw [skipSpace_append_eq_cons hMore hStart]
            cases hType : nodeType word with
            | error cause =>
                rw [hType] at h
                cases h
            | ok found =>
                rw [hType] at h
                obtain ⟨others, hExpect, hEq⟩ := bind_eq_ok_iff.1 h
                cases hEq
                exact bind_eq_ok (expect_append hMore hExpect) rfl
          · have hMoreCall := head?_skipSpace_append_ne hMore (by decide) hCall
            split at h
            · rename_i hStart
              exact absurd (congrArg List.head? hStart) hCall
            · cases h
              split
              · rename_i hStart
                exact absurd (congrArg List.head? hStart) hMoreCall
              · rfl

theorem startsCall_append (c : Char) (s : List Char) :
    startsCall (c :: s ++ more) = startsCall (c :: s) := by
  cases hName : name (c :: s) with
  | error fault =>
      obtain ⟨_, hOther⟩ := name_append_of_error hMore hName
      rw [startsCall, startsCall, hName, hOther]
  | ok read =>
      obtain ⟨word, rest⟩ := read
      have hHead : ((skipSpace rest ++ more).head? == some '(') =
          ((skipSpace rest).head? == some '(') := by
        cases hRest : skipSpace rest with
        | nil => exact beq_eq_false_iff_ne.2 (hMore.head?_ne (by decide))
        | cons d inner => rfl
      rw [startsCall, startsCall, hName, name_append hMore hName]
      dsimp only
      rw [skipSpace_append hMore, hHead]

theorem startsPrimary_append (c : Char) (s : List Char) :
    startsPrimary (c :: s ++ more) = startsPrimary (c :: s) := by
  have hDigits := head?_append_any hMore (show closers.any Char.isDigit = false by decide) s
  have hCall := startsCall_append hMore c s
  rw [List.cons_append] at hCall ⊢
  rw [startsPrimary, startsPrimary, hDigits, hCall]

/-- A word in which no closer occurs ends before one. -/
theorem keyword?_append {word : List Char} (hWord : ∀ c ∈ word, c ∉ closers) (s : List Char) :
    keyword? word (s ++ more) = (keyword? word s).map (· ++ more) := by
  refine Option.ext fun rest => ?_
  rw [keyword?_eq_some_iff, Option.map_eq_some_iff]
  constructor
  · rintro ⟨hText, hNext⟩
    rcases List.append_eq_append_iff.1 hText with ⟨tail, rfl, hTail⟩ | ⟨tail, rfl, rfl⟩
    · cases tail with
      | nil =>
          refine ⟨[], keyword?_eq_some_iff.2 ⟨?_, rfl⟩, ?_⟩
          · rw [List.append_nil, List.append_nil]
          · exact hTail
      | cons c others =>
          have hMem := hMore c (congrArg List.head? hTail)
          exact absurd hMem (hWord c (List.mem_append_right _ (List.mem_cons_self ..)))
    · rw [head?_append_any hMore (by decide +kernel)] at hNext
      exact ⟨tail, keyword?_eq_some_iff.2 ⟨rfl, hNext⟩, rfl⟩
  · rintro ⟨tail, hKeyword, rfl⟩
    obtain ⟨rfl, hNext⟩ := keyword?_eq_some_iff.1 hKeyword
    rw [head?_append_any hMore (by decide +kernel)]
    exact ⟨List.append_assoc .., hNext⟩

end Lexeme

section Operators

/-- Whether a reader of operators finds the same operator when further text follows. -/
def Steady (operator? : OperatorReader) : Prop :=
  ∀ s more, GoesOn closers more →
    operator? (s ++ more) = (operator? s).map fun read => (read.1, read.2 ++ more)

theorem steady_keyword {word : List Char} (hWord : ∀ c ∈ word, c ∉ closers) (operator : Operator) :
    Steady fun s => (keyword? word s).map (operator, ·) := by
  intro s more hMore
  dsimp only
  rw [keyword?_append hMore hWord, Option.map_map, Option.map_map]
  rfl

theorem steady_orOperator : Steady orOperator? :=
  steady_keyword (show ∀ c ∈ ['o', 'r'], c ∉ closers by simp [closers]) Operator.or

theorem steady_andOperator : Steady andOperator? :=
  steady_keyword (show ∀ c ∈ ['a', 'n', 'd'], c ∉ closers by simp [closers]) Operator.and

theorem steady_equalityOperator : Steady equalityOperator? := by
  intro s more hMore
  rw [equalityOperator?.eq_def (s ++ more)]
  split
  · rename_i rest hText
    obtain ⟨others, rfl, hOthers⟩ := exists_eq_cons_of_append hMore (by decide) hText
    obtain ⟨others, rfl, rfl⟩ := exists_eq_cons_of_append hMore (by decide) hOthers.symm
    rfl
  · rename_i rest hText
    obtain ⟨others, rfl, rfl⟩ := exists_eq_cons_of_append hMore (by decide) hText
    rfl
  · rename_i hTwo hOne
    rw [equalityOperator?.eq_def]
    split
    · exact absurd rfl (hTwo _)
    · exact absurd rfl (hOne _)
    · rfl

/-- A sign of order makes one comparison alone and another with an equals sign after it. -/
inductive OrderSign : Char → Comparison → Comparison → Prop
  | less : OrderSign '<' .less .lessOrEqual
  | greater : OrderSign '>' .greater .greaterOrEqual

section OrderSign

variable {c : Char} {alone followed : Comparison} {s : List Char}

theorem OrderSign.not_mem_closers (hSign : OrderSign c alone followed) :
    c ∉ closers := by
  cases hSign <;> decide

theorem relationalOperator?_sign_equals (hSign : OrderSign c alone followed) (s : List Char) :
    relationalOperator? (c :: '=' :: s) = some (.compare followed, s) := by
  cases hSign <;> rfl

theorem relationalOperator?_sign (hSign : OrderSign c alone followed) (hOne : s.head? ≠ some '=') :
    relationalOperator? (c :: s) = some (.compare alone, s) := by
  cases hSign
  all_goals
    rw [relationalOperator?]
    intro rest hStart
    cases hStart
    exact hOne rfl

theorem relationalOperator?_of_not_sign
    (hNone : ∀ c alone followed, OrderSign c alone followed → s.head? ≠ some c) :
    relationalOperator? s = none := by
  have hLess := hNone _ _ _ .less
  have hGreater := hNone _ _ _ .greater
  rw [relationalOperator?.eq_def]
  split
  · exact absurd rfl hLess
  · exact absurd rfl hGreater
  · exact absurd rfl hLess
  · exact absurd rfl hGreater
  · rfl

end OrderSign

theorem steady_relationalOperator : Steady relationalOperator? := by
  intro s more hMore
  by_cases hStart : ∃ c alone followed, OrderSign c alone followed ∧ s.head? = some c
  · obtain ⟨c, alone, followed, hSign, hHead⟩ := hStart
    obtain ⟨inner, rfl⟩ := List.head?_eq_some_iff.1 hHead
    by_cases hTwo : inner.head? = some '='
    · obtain ⟨rest, rfl⟩ := List.head?_eq_some_iff.1 hTwo
      rw [List.cons_append, List.cons_append, relationalOperator?_sign_equals hSign,
        relationalOperator?_sign_equals hSign]
      rfl
    · rw [relationalOperator?_sign hSign hTwo, List.cons_append,
        relationalOperator?_sign hSign (head?_append_ne hMore (by decide) hTwo)]
      rfl
  · have hNone : ∀ c alone followed, OrderSign c alone followed → s.head? ≠ some c :=
      fun c alone followed hSign hHead => hStart ⟨c, alone, followed, hSign, hHead⟩
    rw [relationalOperator?_of_not_sign hNone, relationalOperator?_of_not_sign
      fun _ _ _ hSign => head?_append_ne hMore hSign.not_mem_closers (hNone _ _ _ hSign)]
    rfl

theorem steady_additiveOperator : Steady additiveOperator? := by
  intro s more hMore
  rw [additiveOperator?.eq_def (s ++ more)]
  split
  · rename_i rest hText
    obtain ⟨others, rfl, rfl⟩ := exists_eq_cons_of_append hMore (by decide) hText
    rfl
  · rename_i rest hText
    obtain ⟨others, rfl, rfl⟩ := exists_eq_cons_of_append hMore (by decide) hText
    rfl
  · rename_i hPlus hMinus
    rw [additiveOperator?.eq_def]
    split
    · exact absurd rfl (hPlus _)
    · exact absurd rfl (hMinus _)
    · rfl

theorem multiplicativeOperator?_of_head?_ne {s : List Char} (h : s.head? ≠ some '*') :
    multiplicativeOperator? s =
      match keyword? ['d', 'i', 'v'] s with
      | some rest => some (.arithmetic .divide, rest)
      | none => (keyword? ['m', 'o', 'd'] s).map (Operator.arithmetic .modulo, ·) := by
  rw [multiplicativeOperator?.eq_def]
  split
  · exact absurd rfl h
  · rfl

theorem steady_multiplicativeOperator : Steady multiplicativeOperator? := by
  intro s more hMore
  by_cases hStar : s.head? = some '*'
  · obtain ⟨rest, rfl⟩ := List.head?_eq_some_iff.1 hStar
    rfl
  · rw [multiplicativeOperator?_of_head?_ne hStar,
      multiplicativeOperator?_of_head?_ne (head?_append_ne hMore (by decide) hStar),
      keyword?_append hMore (show ∀ c ∈ ['d', 'i', 'v'], c ∉ closers by simp [closers])]
    cases keyword? ['d', 'i', 'v'] s with
    | none =>
        have hWord : ∀ c ∈ ['m', 'o', 'd'], c ∉ closers := by simp [closers]
        exact steady_keyword hWord _ s more hMore
    | some rest => rfl

theorem steady_unionOperator : Steady unionOperator? := by
  intro s more hMore
  rw [unionOperator?.eq_def (s ++ more)]
  split
  · rename_i rest hText
    obtain ⟨others, rfl, rfl⟩ := exists_eq_cons_of_append hMore (by decide) hText
    rfl
  · rename_i hBar
    rw [unionOperator?.eq_def]
    split
    · exact absurd rfl (hBar _)
    · rfl

end Operators

end Parse

end CborPath
