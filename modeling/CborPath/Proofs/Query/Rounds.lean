import CborPath.Proofs.Query.Reading
import CborPath.Proofs.Query.Remainder

/-!
# Rounds of loops

Predicates, steps, arguments and operands are read by loops.  The bound of a loop is the length of its
text, which every round shortens: the bound is never reached, and each loop goes on with the rest of
its text as it began.
-/

namespace CborPath

open Text (skipSpace)

namespace Parse

/-- A loop whose rounds go on with shorter texts is the same for all bounds above the length of its
text. -/
theorem loop_eq_of_length_lt {γ : Type} (loop : Nat → List Char → γ)
    (hRound : ∀ bound bound' s,
      (∀ t : List Char, t.length < s.length → loop bound t = loop bound' t) →
        loop (bound + 1) s = loop (bound' + 1) s)
    {bound bound' : Nat} {s : List Char} (h : s.length < bound) (h' : s.length < bound') :
    loop bound s = loop bound' s := by
  induction bound generalizing bound' s with
  | zero => exact absurd h (Nat.not_lt_zero _)
  | succ bound ih =>
      obtain ⟨bound', rfl⟩ : ∃ less, bound' = less + 1 := ⟨bound' - 1, by omega⟩
      exact hRound bound bound' s fun t hShorter => ih (by omega) (by omega)

/-- What is left after a character and what follows it is shorter than the text. -/
theorem length_lt_of_skipSpace_eq_cons {c : Char} {s inner rest : List Char}
    (hStart : skipSpace s = c :: inner) (hRest : rest <:+ inner) :
    rest.length < s.length := by
  have hShorter := hRest.length_le
  have hSkip := Text.length_skipSpace_le s
  rw [hStart, List.length_cons] at hSkip
  omega

/-- What is left after an expected character is an end of the text. -/
theorem suffix_of_expect_eq_ok {c : Char} {s rest : List Char} (h : expect c s = .ok rest) :
    rest <:+ s :=
  suffix_of_skipSpace_eq_cons (expect_eq_ok_iff.1 h)

/-- A character begins a text twice, once, or not at all. -/
theorem twice_or_once_or_not (c : Char) (s : List Char) :
    (∃ inner, s = c :: c :: inner) ∨ (∃ inner, s = c :: inner ∧ inner.head? ≠ some c) ∨
      s.head? ≠ some c := by
  by_cases hHead : s.head? = some c
  · obtain ⟨inner, rfl⟩ := List.head?_eq_some_iff.1 hHead
    by_cases hNext : inner.head? = some c
    · obtain ⟨inner, rfl⟩ := List.head?_eq_some_iff.1 hNext
      exact .inl ⟨inner, rfl⟩
    · exact .inr (.inl ⟨inner, rfl, hNext⟩)
  · exact .inr (.inr hHead)

section Nested

variable {nested : Reader Expr} {s inner : List Char}

section Predicates

theorem predicatesWithin_of_bracket (hStart : skipSpace s = '[' :: inner) (bound : Nat) :
    predicatesWithin nested (bound + 1) s = (do
      let (predicate, rest) ← nested inner
      let rest ← expect ']' rest
      let (others, rest) ← predicatesWithin nested bound rest
      return (predicate :: others, rest)) := by
  rw [predicatesWithin, hStart]
  rfl

theorem predicatesWithin_eq (h : TakesOff nested) {bound : Nat} (hBound : s.length < bound) :
    predicatesWithin nested bound s = predicates nested s := by
  refine loop_eq_of_length_lt (predicatesWithin nested) (fun bound bound' s hShorter => ?_) hBound
    (Nat.lt_succ_self _)
  by_cases hHead : (skipSpace s).head? = some '['
  · obtain ⟨inner, hStart⟩ := List.head?_eq_some_iff.1 hHead
    rw [predicatesWithin_of_bracket hStart, predicatesWithin_of_bracket hStart]
    refine bind_congr_of_ok fun read hRead => bind_congr_of_ok fun rest hClose => ?_
    dsimp only
    have hRest := (suffix_of_expect_eq_ok hClose).trans ((h inner).rest _ hRead)
    rw [hShorter rest (length_lt_of_skipSpace_eq_cons hStart hRest)]
  · rw [predicatesWithin_of_head?_ne hHead, predicatesWithin_of_head?_ne hHead]

/-- A predicate in brackets comes before all others. -/
theorem predicates_of_bracket (h : TakesOff nested) (hStart : skipSpace s = '[' :: inner) :
    predicates nested s = (do
      let (predicate, rest) ← nested inner
      let rest ← expect ']' rest
      let (others, rest) ← predicates nested rest
      return (predicate :: others, rest)) := by
  rw [predicates, predicatesWithin_of_bracket hStart]
  refine bind_congr_of_ok fun read hRead => bind_congr_of_ok fun rest hClose => ?_
  have hRest := (suffix_of_expect_eq_ok hClose).trans ((h inner).rest _ hRead)
  dsimp only
  rw [predicatesWithin_eq h (length_lt_of_skipSpace_eq_cons hStart hRest)]

end Predicates

section Steps

theorem pathTailWithin_of_slashes (hStart : skipSpace s = '/' :: '/' :: inner) (bound : Nat) :
    pathTailWithin nested (bound + 1) s = (do
      let (next, rest) ← step nested inner
      let (others, rest) ← pathTailWithin nested bound rest
      return (.descendantOrSelf :: next :: others, rest)) := by
  rw [pathTailWithin, hStart]
  rfl

theorem pathTailWithin_of_slash (hStart : skipSpace s = '/' :: inner) (hOne : inner.head? ≠ some '/')
    (bound : Nat) :
    pathTailWithin nested (bound + 1) s = (do
      let (next, rest) ← step nested inner
      let (others, rest) ← pathTailWithin nested bound rest
      return (next :: others, rest)) := by
  rw [pathTailWithin, hStart]
  split
  · rename_i hTwo
    cases hTwo
    exact absurd rfl hOne
  · rename_i hSlash
    cases hSlash
    rfl
  · rename_i hNone
    exact absurd rfl (hNone inner)

theorem pathTailWithin_eq (h : TakesOff nested) {bound : Nat} (hBound : s.length < bound) :
    pathTailWithin nested bound s = pathTail nested s := by
  refine loop_eq_of_length_lt (pathTailWithin nested) (fun bound bound' s hShorter => ?_) hBound
    (Nat.lt_succ_self _)
  have hStep := takesOff_step h
  rcases twice_or_once_or_not '/' (skipSpace s) with ⟨inner, hStart⟩ | ⟨inner, hStart, hOne⟩ | hNone
  · rw [pathTailWithin_of_slashes hStart, pathTailWithin_of_slashes hStart]
    refine bind_congr_of_ok fun read hRead => ?_
    have hRest := ((hStep inner).rest _ hRead).trans (List.suffix_cons '/' inner)
    dsimp only
    rw [hShorter _ (length_lt_of_skipSpace_eq_cons hStart hRest)]
  · rw [pathTailWithin_of_slash hStart hOne, pathTailWithin_of_slash hStart hOne]
    refine bind_congr_of_ok fun read hRead => ?_
    have hRest := (hStep inner).rest _ hRead
    dsimp only
    rw [hShorter _ (length_lt_of_skipSpace_eq_cons hStart hRest)]
  · rw [pathTailWithin_of_head?_ne hNone, pathTailWithin_of_head?_ne hNone]

/-- Two slashes stand for a step of their own before the next one. -/
theorem pathTail_of_slashes (h : TakesOff nested) (hStart : skipSpace s = '/' :: '/' :: inner) :
    pathTail nested s = (do
      let (next, rest) ← step nested inner
      let (others, rest) ← pathTail nested rest
      return (.descendantOrSelf :: next :: others, rest)) := by
  rw [pathTail, pathTailWithin_of_slashes hStart]
  refine bind_congr_of_ok fun read hRead => ?_
  have hRest := ((takesOff_step h inner).rest _ hRead).trans (List.suffix_cons '/' inner)
  dsimp only
  rw [pathTailWithin_eq h (length_lt_of_skipSpace_eq_cons hStart hRest)]

theorem pathTail_of_slash (h : TakesOff nested) (hStart : skipSpace s = '/' :: inner)
    (hOne : inner.head? ≠ some '/') :
    pathTail nested s = (do
      let (next, rest) ← step nested inner
      let (others, rest) ← pathTail nested rest
      return (next :: others, rest)) := by
  rw [pathTail, pathTailWithin_of_slash hStart hOne]
  refine bind_congr_of_ok fun read hRead => ?_
  have hRest := (takesOff_step h inner).rest _ hRead
  dsimp only
  rw [pathTailWithin_eq h (length_lt_of_skipSpace_eq_cons hStart hRest)]

end Steps

section Arguments

/-- Takes off arguments with commas between them. -/
def argumentList (nested : Reader Expr) : Reader (List Expr) :=
  fun s => argumentsWithin nested (s.length + 1) s

theorem argumentsWithin_eq (h : TakesOff nested) {bound : Nat} (hBound : s.length < bound) :
    argumentsWithin nested bound s = argumentList nested s := by
  refine loop_eq_of_length_lt (argumentsWithin nested) (fun bound bound' s hShorter => ?_) hBound
    (Nat.lt_succ_self _)
  rw [argumentsWithin, argumentsWithin]
  refine bind_congr_of_ok fun read hRead => ?_
  have hRead := (h s).rest _ hRead
  dsimp only
  split
  · rename_i inner hComma
    have hShort := length_lt_of_skipSpace_eq_cons hComma (List.suffix_refl inner)
    have hLonger := hRead.length_le
    rw [hShorter inner (by omega)]
  · rfl

/-- Takes off arguments and the parenthesis that closes them. -/
def closedArguments (nested : Reader Expr) : Reader (List Expr) :=
  fun s => do
    let (arguments, rest) ← argumentList nested s
    let rest ← expect ')' rest
    return (arguments, rest)

/-- Takes off the arguments that follow a first one, and the parenthesis. -/
def moreArguments (nested : Reader Expr) (first : Expr) : Reader (List Expr) :=
  fun s =>
    match skipSpace s with
    | ',' :: rest => do
        let (others, rest) ← closedArguments nested rest
        return (first :: others, rest)
    | rest => do
        let rest ← expect ')' rest
        return ([first], rest)

theorem moreArguments_of_comma (hComma : skipSpace s = ',' :: inner) (first : Expr) :
    moreArguments nested first s = (do
      let (others, rest) ← closedArguments nested inner
      return (first :: others, rest)) := by
  rw [moreArguments, hComma]
  rfl

theorem moreArguments_of_head?_ne (h : (skipSpace s).head? ≠ some ',') (first : Expr) :
    moreArguments nested first s = (do
      let rest ← expect ')' (skipSpace s)
      return ([first], rest)) := by
  rw [moreArguments]
  split
  · rename_i hComma
    exact absurd (congrArg List.head? hComma) h
  · rfl

/-- An argument comes before those that follow it. -/
theorem closedArguments_eq (h : TakesOff nested) (s : List Char) :
    closedArguments nested s = (do
      let (first, rest) ← nested s
      moreArguments nested first rest) := by
  rw [closedArguments, argumentList, argumentsWithin, bind_assoc]
  refine bind_congr_of_ok fun read hRead => ?_
  have hLonger := ((h s).rest _ hRead).length_le
  dsimp only
  split
  · rename_i inner hComma
    have hShort := length_lt_of_skipSpace_eq_cons hComma (List.suffix_refl inner)
    rw [moreArguments_of_comma hComma, argumentsWithin_eq h (by omega), closedArguments]
    simp only [bind_assoc, pure_bind]
  · rename_i hNone
    have hHead : (skipSpace read.2).head? ≠ some ',' := by
      intro hHead
      obtain ⟨inner, hComma⟩ := List.head?_eq_some_iff.1 hHead
      exact hNone inner hComma
    rw [moreArguments_of_head?_ne hHead]
    rfl

theorem arguments_of_head?_ne (h : (skipSpace s).head? ≠ some ')') :
    arguments nested s = closedArguments nested (skipSpace s) := by
  rw [arguments]
  split
  · rename_i hClose
    exact absurd (congrArg List.head? hClose) h
  · rfl

end Arguments

end Nested

section Links

/-- Extends a left operand by all operators of one precedence that follow, with their operands. -/
def links (operator? : OperatorReader) (operand : Reader Expr) (left : Expr) : Reader Expr :=
  fun s => chainWithin operator? operand (s.length + 1) left s

variable {operator? : OperatorReader} {operand : Reader Expr} {left : Expr} {s rest : List Char}
  {operator : Operator}

theorem chainWithin_of_some (h : operator? (skipSpace s) = some (operator, rest)) (bound : Nat)
    (left : Expr) :
    chainWithin operator? operand (bound + 1) left s = (do
      let (right, rest) ← operand rest
      chainWithin operator? operand bound (operator.apply left right) rest) := by
  rw [chainWithin, h]

theorem chainWithin_of_none (h : operator? (skipSpace s) = none) (bound : Nat) (left : Expr) :
    chainWithin operator? operand (bound + 1) left s = .ok (left, skipSpace s) := by
  rw [chainWithin, h]

/-- Where no operator of the precedence follows, the left operand is all. -/
theorem links_of_none (h : operator? (skipSpace s) = none) (left : Expr) :
    links operator? operand left s = .ok (left, skipSpace s) :=
  chainWithin_of_none h _ left

theorem length_lt_of_operator (hOperator : Shortens operator?)
    (h : operator? (skipSpace s) = some (operator, rest)) :
    rest.length < s.length := by
  have hRest := (hOperator _ _ _ h).2
  have hSkip := Text.length_skipSpace_le s
  omega

theorem chainWithin_eq (hOperator : Shortens operator?) (h : TakesOff operand) {bound : Nat}
    (hBound : s.length < bound) :
    chainWithin operator? operand bound left s = links operator? operand left s := by
  suffices hAll : (fun left => chainWithin operator? operand bound left s) =
      fun left => chainWithin operator? operand (s.length + 1) left s from congrFun hAll left
  refine loop_eq_of_length_lt (fun bound s left => chainWithin operator? operand bound left s)
    (fun bound bound' s hShorter => funext fun left => ?_) hBound (Nat.lt_succ_self _)
  cases hRead : operator? (skipSpace s) with
  | none => rw [chainWithin_of_none hRead, chainWithin_of_none hRead]
  | some read =>
      obtain ⟨operator, rest⟩ := read
      rw [chainWithin_of_some hRead, chainWithin_of_some hRead]
      refine bind_congr_of_ok fun read hRight => ?_
      have hLess := length_lt_of_operator hOperator hRead
      have hLeft := ((h rest).rest _ hRight).length_le
      exact congrFun (hShorter read.2 (by omega)) _

/-- An operator makes a new left operand of the one before it and the next one. -/
theorem links_of_some (hOperator : Shortens operator?) (h : TakesOff operand)
    (hRead : operator? (skipSpace s) = some (operator, rest)) (left : Expr) :
    links operator? operand left s = (do
      let (right, rest) ← operand rest
      links operator? operand (operator.apply left right) rest) := by
  rw [links, chainWithin_of_some hRead]
  refine bind_congr_of_ok fun read hRight => ?_
  have hLess := length_lt_of_operator hOperator hRead
  have hLeft := ((h rest).rest _ hRight).length_le
  exact chainWithin_eq hOperator h (by omega)

theorem chain_eq (operator? : OperatorReader) (operand : Reader Expr) (s : List Char) :
    chain operator? operand s = (do
      let (first, rest) ← operand s
      links operator? operand first rest) :=
  rfl

/-- No white space is left after operands. -/
theorem yields_links (hOperator : Shortens operator?) (h : TakesOff operand) (left : Expr)
    (s : List Char) :
    Yields (links operator? operand left s) fun read => skipSpace read.2 = read.2 := by
  induction hLength : s.length using Nat.strong_induction_on generalizing s left with
  | _ length ih =>
      subst hLength
      cases hRead : operator? (skipSpace s) with
      | none =>
          rw [links_of_none hRead]
          exact yields_ok (Text.skipSpace_skipSpace s)
      | some read =>
          obtain ⟨operator, rest⟩ := read
          rw [links_of_some hOperator h hRead]
          have hLess := length_lt_of_operator hOperator hRead
          refine Yields.bind (h rest).rest fun read hRest => ?_
          exact ih _ (Nat.lt_of_le_of_lt hRest.length_le hLess) _ _ rfl

theorem yields_chain (hOperator : Shortens operator?) (h : TakesOff operand) (s : List Char) :
    Yields (chain operator? operand s) fun read => skipSpace read.2 = read.2 :=
  yields_bind fun first => yields_links hOperator h first.1 first.2

end Links

end Parse

end CborPath
