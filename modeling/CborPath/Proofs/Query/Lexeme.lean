import CborPath.Proofs.Number.Numeral
import CborPath.Proofs.Number.Shortest

/-!
# Lexemes read back

What is written for a number, an axis or a node test is read as what it was written for, if the text
goes on with something that cannot belong to it.  An expression that is written out is always followed
by one of few characters; none of them is white space or continues a lexeme.
-/

namespace CborPath

open Text (isSpace skipSpace)

namespace Parse

section Boundary

variable {p : Char → Bool} {run rest : List Char}

/-- A run of characters ends where the text goes on with another one. -/
theorem takeWhile_append_of_end (hRun : run.all p = true) (hRest : rest.head?.any p = false) :
    (run ++ rest).takeWhile p = run := by
  rw [List.takeWhile_append_of_pos (List.all_eq_true.1 hRun)]
  cases rest with
  | nil => exact List.append_nil run
  | cons c others =>
      rw [List.takeWhile_cons_of_neg (by simpa using hRest), List.append_nil]

theorem dropWhile_append_of_end (hRun : run.all p = true) (hRest : rest.head?.any p = false) :
    (run ++ rest).dropWhile p = rest := by
  rw [List.dropWhile_append_of_pos (List.all_eq_true.1 hRun)]
  cases rest with
  | nil => rfl
  | cons c others => exact List.dropWhile_cons_of_neg (by simpa using hRest)

end Boundary

theorem head?_cons_ne_of_not_mem {c mark : Char} {marks : List Char} (h : c ∉ marks)
    (hMark : mark ∈ marks) (rest : List Char) :
    (c :: rest).head? ≠ some mark :=
  fun hEq => h (Option.some.inj hEq ▸ hMark)

theorem head?_cons_ne {c mark : Char} (h : c ≠ mark) (rest : List Char) :
    (c :: rest).head? ≠ some mark :=
  fun hEq => h (Option.some.inj hEq)

/-- Whether a text is at its end or goes on with one of the given characters. -/
def GoesOn (marks rest : List Char) : Prop :=
  ∀ c, rest.head? = some c → c ∈ marks

section GoesOn

variable {marks : List Char} {c : Char} {rest : List Char}

theorem goesOn_nil (marks : List Char) :
    GoesOn marks [] :=
  nofun

theorem goesOn_cons (h : c ∈ marks) (rest : List Char) :
    GoesOn marks (c :: rest) := by
  intro d hHead
  cases hHead
  exact h

theorem GoesOn.mono {others : List Char} (h : GoesOn marks rest) (hSubset : marks ⊆ others) :
    GoesOn others rest :=
  fun c hHead => hSubset (h c hHead)

/-- What holds of none of the characters does not hold of the first one. -/
theorem GoesOn.any_eq_false {p : Char → Bool} (h : GoesOn marks rest)
    (hMarks : marks.any p = false) :
    rest.head?.any p = false := by
  cases hHead : rest.head? with
  | none => rfl
  | some c =>
      rw [List.any_eq_false] at hMarks
      simpa using hMarks c (h c hHead)

theorem GoesOn.head?_ne (h : GoesOn marks rest) (hMark : c ∉ marks) :
    rest.head? ≠ some c :=
  fun hHead => hMark (h c hHead)

/-- Nothing is skipped before a character that is not white space. -/
theorem GoesOn.skipSpace_eq (h : GoesOn marks rest) (hMarks : marks.any isSpace = false) :
    skipSpace rest = rest := by
  have hHead := h.any_eq_false hMarks
  cases rest with
  | nil => rfl
  | cons c others => exact Text.skipSpace_cons_of_not_isSpace (by simpa using hHead) others

theorem GoesOn.head?_skipSpace_ne (h : GoesOn marks rest) (hMarks : marks.any isSpace = false)
    (hMark : c ∉ marks) :
    (skipSpace rest).head? ≠ some c := by
  rw [h.skipSpace_eq hMarks]
  exact h.head?_ne hMark

end GoesOn

/-- What may follow an expression that is written out. -/
def closers : List Char :=
  [')', ']', ',']

/-- What may follow a step that is written out. -/
def stepEnds : List Char :=
  '/' :: closers

/-- What may follow a node test that is written out. -/
def testEnds : List Char :=
  '[' :: stepEnds

section Ends

variable {rest : List Char}

theorem goesOn_parenthesis (rest : List Char) :
    GoesOn closers (')' :: rest) :=
  goesOn_cons (by decide) rest

theorem goesOn_bracket (rest : List Char) :
    GoesOn closers (']' :: rest) :=
  goesOn_cons (by decide) rest

theorem goesOn_comma (rest : List Char) :
    GoesOn closers (',' :: rest) :=
  goesOn_cons (by decide) rest

/-- A step may end where an expression may. -/
theorem GoesOn.stepEnds (h : GoesOn closers rest) :
    GoesOn stepEnds rest :=
  h.mono (List.subset_cons_self '/' closers)

theorem skipSpace_of_stepEnds (h : GoesOn stepEnds rest) :
    skipSpace rest = rest :=
  h.skipSpace_eq (by decide)

theorem skipSpace_of_closers (h : GoesOn closers rest) :
    skipSpace rest = rest :=
  skipSpace_of_stepEnds h.stepEnds

/-- No predicate follows a step that has ended. -/
theorem head?_ne_bracket (h : GoesOn stepEnds rest) :
    (skipSpace rest).head? ≠ some '[' :=
  h.head?_skipSpace_ne (by decide) (by decide)

/-- No step follows an expression that has ended. -/
theorem head?_ne_slash (h : GoesOn closers rest) :
    (skipSpace rest).head? ≠ some '/' :=
  h.head?_skipSpace_ne (by decide) (by decide)

end Ends

/-- The characters that are white space. -/
def spaces : List Char :=
  [9, 10, 11, 12, 13, 0x20, 0x85, 0xA0, 0x1680, 0x2000, 0x2001, 0x2002, 0x2003, 0x2004, 0x2005, 0x2006,
    0x2007, 0x2008, 0x2009, 0x200A, 0x2028, 0x2029, 0x202F, 0x205F, 0x3000].map Char.ofNat

theorem mem_spaces_of_isSpace {c : Char} (h : isSpace c = true) :
    c ∈ spaces := by
  refine List.mem_map.2 ⟨c.toNat, ?_, Char.ofNat_toNat c⟩
  simp [isSpace] at h ⊢
  omega

/-- A kind of characters to which no white space belongs. -/
theorem isSpace_eq_false_of {p : Char → Bool} (hSpaces : spaces.any p = false) {c : Char}
    (h : p c = true) :
    isSpace c = false := by
  rw [Bool.eq_false_iff]
  intro hSpace
  rw [List.any_eq_false] at hSpaces
  exact hSpaces c (mem_spaces_of_isSpace hSpace) h

theorem isSpace_of_isNameStart {c : Char} (h : isNameStart c = true) :
    isSpace c = false :=
  isSpace_eq_false_of (by decide +kernel) h

/-- A name does not begin with a mark. -/
theorem ne_of_isNameStart {c mark : Char} (h : isNameStart c = true) (hMark : isNameStart mark = false) :
    c ≠ mark := by
  rintro rfl
  rw [h] at hMark
  cases hMark

/-- A name does not begin with a digit. -/
theorem isDigit_of_isNameStart {c : Char} (h : isNameStart c = true) :
    c.isDigit = false := by
  rw [Bool.eq_false_iff]
  intro hDigit
  have hCode : 48 ≤ c.toNat ∧ c.toNat ≤ 57 := by
    simpa [Char.isDigit, UInt32.le_iff_toNat_le] using hDigit
  have hMem : c ∈ (List.range' 48 10).map Char.ofNat :=
    List.mem_map.2 ⟨c.toNat, List.mem_range'_1.2 ⟨hCode.1, by omega⟩, Char.ofNat_toNat c⟩
  have hNone : ((List.range' 48 10).map Char.ofNat).any isNameStart = false := by decide
  rw [List.any_eq_false] at hNone
  exact hNone c hMem h

theorem isNameChar_of_isDigit {c : Char} (h : c.isDigit = true) :
    isNameChar c = true := by
  simp [isNameChar, Text.isAlphanumeric, Text.isNumeric_of_isDigit h]

theorem isSpace_of_isDigit {c : Char} (h : c.isDigit = true) :
    isSpace c = false :=
  isSpace_eq_false_of (by decide +kernel) h

/-- What begins like a name is a primary expression only if it is a call. -/
theorem startsPrimary_of_isNameStart {c : Char} (h : isNameStart c = true) (rest : List Char) :
    startsPrimary (c :: rest) = startsCall (c :: rest) := by
  have hMark : ∀ mark, isNameStart mark = false → (c == mark) = false := fun mark hNone =>
    beq_eq_false_iff_ne.2 (ne_of_isNameStart h hNone)
  rw [startsPrimary, isDigit_of_isNameStart h, hMark '(' (by decide), hMark '"' (by decide),
    hMark '\x27' (by decide), hMark '$' (by decide), hMark '.' (by decide)]
  rfl

section Number

variable {whole fraction rest : List Char}

/-- Digits are taken off as far as they go. -/
theorem numberLiteral_digits (hDigits : whole.all Char.isDigit = true)
    (hRest : rest.head?.any Char.isDigit = false) (hPoint : rest.head? ≠ some '.') :
    numberLiteral (whole ++ rest) = (Binary64.ofDecimal false whole [], rest) := by
  simp only [numberLiteral, takeWhile_append_of_end hDigits hRest,
    dropWhile_append_of_end hDigits hRest]
  split
  · exact absurd rfl hPoint
  · rfl

/-- With a point, they are taken off on both sides of it. -/
theorem numberLiteral_point (hDigits : whole.all Char.isDigit = true)
    (hFraction : fraction.all Char.isDigit = true) (hRest : rest.head?.any Char.isDigit = false) :
    numberLiteral (whole ++ '.' :: (fraction ++ rest)) =
      (Binary64.ofDecimal false whole fraction, rest) := by
  have hEnd : ('.' :: (fraction ++ rest)).head?.any Char.isDigit = false := rfl
  simp only [numberLiteral, takeWhile_append_of_end hDigits hEnd,
    dropWhile_append_of_end hDigits hEnd, takeWhile_append_of_end hFraction hRest,
    dropWhile_append_of_end hFraction hRest]

theorem numberLiteral_pointed (hDigits : (whole ++ fraction).all Char.isDigit = true)
    (hRest : rest.head?.any Char.isDigit = false) (hPoint : rest.head? ≠ some '.') :
    numberLiteral (pointed whole fraction ++ rest) =
      (Binary64.ofDecimal false whole fraction, rest) := by
  rw [List.all_append, Bool.and_eq_true] at hDigits
  rw [pointed]
  split
  · rename_i hNone
    subst hNone
    exact numberLiteral_digits hDigits.1 hRest hPoint
  · rw [List.append_assoc, List.cons_append]
    exact numberLiteral_point hDigits.1 hDigits.2 hRest

end Number

/-- Whether a node test may end before a text: no name goes on there, and neither a parenthesis nor a
colon makes the name something else. -/
structure EndsTest (rest : List Char) : Prop where
  name : rest.head?.any isNameChar = false
  call : (skipSpace rest).head? ≠ some '('
  colon : (skipSpace rest).head? ≠ some ':'

theorem GoesOn.endsTest {rest : List Char} (h : GoesOn testEnds rest) :
    EndsTest rest :=
  ⟨h.any_eq_false (by decide), h.head?_skipSpace_ne (by decide) (by decide),
    h.head?_skipSpace_ne (by decide) (by decide)⟩

/-- Where a name ends, no digit follows. -/
theorem EndsTest.any_isDigit_eq {rest : List Char} (h : EndsTest rest) :
    rest.head?.any Char.isDigit = false := by
  have hName := h.name
  cases hHead : rest.head? with
  | none => rfl
  | some c =>
      rw [hHead] at hName
      exact Bool.eq_false_iff.2 fun hDigit =>
        absurd (isNameChar_of_isDigit hDigit) (Bool.eq_false_iff.1 hName)

/-- Where a name ends, no point follows. -/
theorem EndsTest.head?_ne_point {rest : List Char} (h : EndsTest rest) :
    rest.head? ≠ some '.' := by
  intro hPoint
  have hName := h.name
  rw [hPoint] at hName
  exact absurd hName (by decide)

theorem EndsTest.startsPrefixed_eq {rest : List Char} (h : EndsTest rest) :
    startsPrefixed rest = false := by
  unfold startsPrefixed
  split
  · rfl
  · exact absurd rfl h.colon
  · rfl

section NodeTest

variable {rest : List Char}

/-- A name begins with a character that is not white space. -/
theorem exists_toList_eq_cons_of_isName {word : String} (h : isName word.toList = true) :
    ∃ c others, word.toList = c :: others ∧ isNameStart c = true := by
  cases hWord : word.toList with
  | nil =>
      rw [hWord] at h
      cases h
  | cons c others =>
      rw [hWord, isName, Bool.and_eq_true] at h
      exact ⟨c, others, rfl, h.1⟩

theorem skipSpace_name {word : String} (h : isName word.toList = true) (rest : List Char) :
    skipSpace (word.toList ++ rest) = word.toList ++ rest := by
  obtain ⟨c, others, hWord, hStart⟩ := exists_toList_eq_cons_of_isName h
  rw [hWord, List.cons_append]
  exact Text.skipSpace_cons_of_not_isSpace (isSpace_of_isNameStart hStart) _

/-- A node test begins with a character that is neither white space, nor a point, a slash or a minus
sign. -/
theorem exists_written_eq_cons {test : NodeTest} (hTest : test.isWritable = true) :
    ∃ c others, test.written = c :: others ∧ isSpace c = false ∧ c ∉ ['.', '/', '-'] := by
  cases test with
  | anyElement => exact ⟨'*', _, rfl, rfl, by decide⟩
  | anyNode => exact ⟨'n', _, rfl, rfl, by decide⟩
  | anyText => exact ⟨'t', _, rfl, rfl, by decide⟩
  | named word =>
      obtain ⟨c, others, hWord, hStart⟩ := exists_toList_eq_cons_of_isName hTest
      refine ⟨c, others, hWord, isSpace_of_isNameStart hStart, fun hMem => ?_⟩
      have hNone : ['.', '/', '-'].all (fun mark => !isNameStart mark) = true := by decide
      have hMark := List.all_eq_true.1 hNone c hMem
      rw [hStart] at hMark
      cases hMark

/-- What is written for a node test is read as the node test. -/
theorem nodeTest_written {test : NodeTest} (hTest : test.isWritable = true) (hRest : EndsTest rest) :
    nodeTest (test.written ++ rest) = .ok (test, rest) := by
  cases test with
  | anyElement => rfl
  | anyNode => rfl
  | anyText => rfl
  | named word =>
      rw [NodeTest.isWritable] at hTest
      rw [NodeTest.written]
      have hName : name (word.toList ++ rest) = .ok (word, rest) :=
        name_eq_ok_iff.2 ⟨rfl, hTest, hRest.name⟩
      rw [nodeTest, skipSpace_name hTest]
      split
      · rename_i hStar
        obtain ⟨c, others, hWord, hStart⟩ := exists_toList_eq_cons_of_isName hTest
        rw [hWord] at hStar
        cases hStar
        exact absurd hStart (by decide)
      · rw [hName]
        show (if startsPrefixed rest = true then _ else _) = _
        rw [hRest.startsPrefixed_eq, if_neg Bool.false_ne_true]
        split
        · rename_i hCall
          exact absurd (congrArg List.head? hCall) hRest.call
        · rfl

/-- Without an axis before it, a node test asks the children. -/
theorem axis_written {test : NodeTest} (hTest : test.isWritable = true) (hRest : EndsTest rest) :
    axis (test.written ++ rest) = .ok (.child, test.written ++ rest) := by
  cases test with
  | anyElement => rfl
  | anyNode => rfl
  | anyText => rfl
  | named word =>
      rw [NodeTest.isWritable] at hTest
      rw [NodeTest.written]
      have hName : name (word.toList ++ rest) = .ok (word, rest) :=
        name_eq_ok_iff.2 ⟨rfl, hTest, hRest.name⟩
      rw [axis.eq_def]
      split
      · rename_i hAttribute
        obtain ⟨c, others, hWord, hStart⟩ := exists_toList_eq_cons_of_isName hTest
        rw [hWord] at hAttribute
        cases hAttribute
        exact absurd hStart (by decide)
      · rw [hName]
        dsimp only
        split
        · rename_i hColon
          exact absurd (congrArg List.head? hColon) hRest.colon
        · rfl

end NodeTest

end Parse

end CborPath
