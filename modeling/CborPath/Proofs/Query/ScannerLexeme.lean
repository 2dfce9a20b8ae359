import CborPath.Proofs.Query.Continuation
import CborPath.Proofs.Query.Scanner

/-!
# Agreement of scans and readers

A scan agrees with a reader at an end of the text if from the place of this end it gives the same
expression and moves the cursor to the place of what the reader leaves, or refuses the text for the same
cause at the place of the fault.  Agreement goes from each part of a reading to the next, and it leaves
no room for any other halt.  Here it is shown for single characters, words, names and literals.
-/

namespace CborPath

open Text (placeOf)

namespace Scan

section Agrees

variable {α β : Type} {text s rest : List Char} {place place' : Nat}

theorem run_bind_of_ok {scan : Scan α} {next : α → Scan β} {x : α}
    (h : scan.run place = .ok (x, place')) :
    (scan >>= next).run place = (next x).run place' := by
  rw [StateT.run_bind, h]
  rfl

/-- What a scan gives for what a reader gives. -/
def outcomeAt (text : List Char) :
    Except Parse.Fault (α × List Char) → Except Halt (α × Nat)
  | .ok (x, rest) => .ok (x, placeOf text rest)
  | .error fault => .error (.refused ⟨fault.cause, placeOf text fault.rest⟩)

/-- Whether a scan from an end of a text gives what a reader gives. -/
def Agrees (text s : List Char) (scan : Scan α) (outcome : Except Parse.Fault (α × List Char)) : Prop :=
  scan.run (placeOf text s) = outcomeAt text outcome

theorem agrees_ok (x : α) :
    Agrees text s (pure x) (.ok (x, s)) :=
  rfl

theorem agrees_refuse (cause : ParseCause) :
    Agrees text s (refuse cause (placeOf text rest)) (.error ⟨cause, rest⟩ : Except _ (α × _)) :=
  rfl

/-- A scan that is sure to go on to some place. -/
theorem Agrees.after {scan : Scan α} {next : α → Scan β} {x : α}
    {outcome : Except Parse.Fault (β × List Char)} (hNext : Agrees text rest (next x) outcome)
    (h : scan.run (placeOf text s) = .ok (x, placeOf text rest)) :
    Agrees text s (scan >>= next) outcome :=
  (run_bind_of_ok h).trans hNext

theorem Agrees.bind {scan : Scan α} {outcome : Except Parse.Fault (α × List Char)} {next : α → Scan β}
    {further : α × List Char → Except Parse.Fault (β × List Char)} (h : Agrees text s scan outcome)
    (hNext : ∀ x rest, outcome = .ok (x, rest) → Agrees text rest (next x) (further (x, rest))) :
    Agrees text s (scan >>= next) (outcome >>= further) := by
  cases outcome with
  | ok read => exact (hNext read.1 read.2 rfl).after h
  | error fault =>
      rw [Agrees, StateT.run_bind, h]
      rfl

/-- Whether a scan gives what a reader gives from all ends of a text. -/
structure Follows (text : List Char) (scan : Scan α) (reader : Parse.Reader α) : Prop where
  keeps : Parse.TakesOff reader
  agrees : ∀ s, s <:+ text → Agrees text s scan (reader s)

theorem Follows.bind {scan : Scan α} {reader : Parse.Reader α} {next : α → Scan β}
    {further : α × List Char → Except Parse.Fault (β × List Char)} (h : Follows text scan reader)
    (hs : s <:+ text)
    (hNext : ∀ x rest, rest <:+ s → Agrees text rest (next x) (further (x, rest))) :
    Agrees text s (scan >>= next) (reader s >>= further) :=
  (h.agrees s hs).bind fun x rest hRead => hNext x rest ((h.keeps s).rest _ hRead)

end Agrees

section Cursor

variable {text s rest : List Char} (h : s <:+ text)

theorem run_get (place : Nat) : (get : Scan Nat).run place = .ok (place, place) :=
  rfl

include h

theorem run_charactersFrom (place : Nat) :
    (charactersFrom text (placeOf text s)).run place = .ok (s, place) := by
  rw [charactersFrom, Text.charactersFrom?_placeOf h]
  rfl

theorem run_moveTo (place : Nat) :
    (moveTo text (placeOf text s)).run place = .ok ((), placeOf text s) := by
  rw [moveTo, run_bind_of_ok (run_charactersFrom h place)]
  rfl

theorem run_remaining :
    (remaining text).run (placeOf text s) = .ok (s, placeOf text s) := by
  rw [remaining, run_bind_of_ok (run_get _), run_charactersFrom h]

theorem run_peek :
    (peek text).run (placeOf text s) = .ok (s.head?, placeOf text s) := by
  rw [peek, run_bind_of_ok (run_remaining h)]
  rfl

theorem run_peekSecond :
    (peekSecond text).run (placeOf text s) = .ok (s.tail.head?, placeOf text s) := by
  rw [peekSecond, run_bind_of_ok (run_remaining h)]
  rfl

omit h in
theorem run_advance {word : List Char} {count : Nat} (h : word ++ rest <:+ text)
    (hCount : Text.byteLength word = count) :
    (advance text count).run (placeOf text (word ++ rest)) = .ok ((), placeOf text rest) := by
  rw [advance, run_bind_of_ok (run_get _), ← hCount, Text.placeOf_append_add h]
  exact run_moveTo ((List.suffix_append word rest).trans h) _

omit h in
theorem run_next {c : Char} (h : c :: rest <:+ text) :
    (next text).run (placeOf text (c :: rest)) = .ok (some c, placeOf text rest) := by
  have hOne : [c] ++ rest <:+ text := h
  have hAdvance : (advance text c.utf8Size).run (placeOf text (c :: rest)) =
      .ok ((), placeOf text rest) :=
    run_advance hOne rfl
  rw [next, run_bind_of_ok (run_peek h)]
  dsimp only [List.head?_cons]
  rw [run_bind_of_ok hAdvance]
  rfl

omit h in
theorem run_next_nil (text : List Char) :
    (next text).run (placeOf text []) = .ok (none, placeOf text []) := by
  rw [next, run_bind_of_ok (run_peek List.nil_suffix)]
  rfl

/-- The next bytes hold a word if the word comes next. -/
theorem exists_run_peekBytes (count : Nat) :
    ∃ found, (peekBytes text count).run (placeOf text s) = .ok (found, placeOf text s) ∧
      ∀ word, Text.byteLength word = count → word ≠ [] → (found = word ↔ word <+: s) := by
  refine ⟨_, rfl, fun word hCount hWord => ⟨fun hFound => ?_, fun hPrefix => ?_⟩⟩
  · rw [Option.getD_eq_iff, or_iff_left fun hNone => hWord hNone.2.symm] at hFound
    exact Text.prefix_of_charactersBetween?_eq_some h hFound
  · obtain ⟨rest, rfl⟩ := hPrefix
    have hStop : min (placeOf text (word ++ rest) + count) (Text.byteLength text) =
        placeOf text rest := by
      rw [← hCount, Text.placeOf_append_add h]
      exact Nat.min_eq_left Text.placeOf_le
    rw [hStop, Text.charactersBetween?_placeOf h]
    rfl

theorem run_skipWithin (passes : Char → Bool) {bound : Nat} (hBound : s.length < bound) :
    (skipWithin text passes bound).run (placeOf text s) =
      .ok ((), placeOf text (s.dropWhile passes)) := by
  induction bound generalizing s with
  | zero => exact absurd hBound (Nat.not_lt_zero _)
  | succ bound ih =>
      rw [skipWithin, run_bind_of_ok (run_peek h)]
      cases s with
      | nil => rfl
      | cons c rest =>
          dsimp only [List.head?_cons]
          by_cases hPasses : passes c = true
          · rw [if_pos hPasses, run_bind_of_ok (run_next h), List.dropWhile_cons_of_pos hPasses]
            exact ih ((List.suffix_cons c rest).trans h) (Nat.lt_of_succ_lt_succ hBound)
          · rw [if_neg hPasses, List.dropWhile_cons_of_neg hPasses]
            rfl

theorem run_skip (passes : Char → Bool) :
    (skip text passes).run (placeOf text s) = .ok ((), placeOf text (s.dropWhile passes)) :=
  run_skipWithin h passes (Nat.lt_succ_of_le h.length_le)

theorem run_skipSpace :
    (skipSpace text).run (placeOf text s) = .ok ((), placeOf text (Text.skipSpace s)) :=
  run_skip h Text.isSpace

theorem run_charactersBetween {word : List Char} (hWord : s = word ++ rest) (place : Nat) :
    (charactersBetween text (placeOf text s) (placeOf text rest)).run place = .ok (word, place) := by
  subst hWord
  rw [charactersBetween, Text.charactersBetween?_placeOf h]
  rfl

end Cursor

section Lexeme

variable {β : Type} {text s rest : List Char}

theorem agrees_expect (c : Char) (h : s <:+ text) :
    Agrees text s (expect text c) ((Parse.expect c s).map fun rest => ((), rest)) := by
  have hSkip := (Parse.skipSpace_suffix s).trans h
  rw [expect, Parse.expect]
  refine Agrees.after ?_ (run_skipSpace h)
  refine Agrees.after ?_ (run_peek hSkip)
  cases hStart : Text.skipSpace s with
  | nil => exact (agrees_refuse _).after (run_get _)
  | cons d rest =>
      rw [hStart] at hSkip
      dsimp only [List.head?_cons]
      by_cases hSame : d = c
      · rw [if_pos hSame, if_pos hSame]
        refine Agrees.after ?_ (run_next hSkip)
        exact agrees_ok ()
      · rw [if_neg hSame, if_neg hSame]
        exact (agrees_refuse _).after (run_get _)

theorem agrees_expect_bind {c : Char} {next : Unit → Scan β}
    {further : List Char → Except Parse.Fault (β × List Char)} (h : s <:+ text)
    (hNext : ∀ rest, rest <:+ s → Agrees text rest (next ()) (further rest)) :
    Agrees text s (expect text c >>= next) (Parse.expect c s >>= further) := by
  have hRead : Parse.expect c s >>= further =
      ((Parse.expect c s).map fun rest => ((), rest)) >>= fun read => further read.2 := by
    cases Parse.expect c s <;> rfl
  rw [hRead]
  refine (agrees_expect c h).bind fun _ rest hRest => ?_
  cases hExpect : Parse.expect c s with
  | error fault =>
      rw [hExpect] at hRest
      cases hRest
  | ok rest =>
      rw [hExpect] at hRest
      cases hRest
      exact hNext rest (Parse.suffix_of_expect_eq_ok hExpect)

theorem agrees_name (h : s <:+ text) :
    Agrees text s (name text) (Parse.name s) := by
  rw [name]
  refine Agrees.after ?_ (run_get _)
  refine Agrees.after ?_ (run_peek h)
  cases s with
  | nil => exact (agrees_refuse _).after (run_get _)
  | cons c s =>
      dsimp only [List.head?_cons]
      rw [Parse.name]
      by_cases hStart : Parse.isNameStart c = true
      · have hTail := (List.suffix_cons c s).trans h
        have hWord : c :: s =
            (c :: s.takeWhile Parse.isNameChar) ++ s.dropWhile Parse.isNameChar := by
          rw [List.cons_append, List.takeWhile_append_dropWhile]
        rw [if_pos hStart, if_pos hStart]
        refine Agrees.after ?_ (run_next h)
        refine Agrees.after ?_ (run_skip hTail _)
        refine Agrees.after ?_ (run_get _)
        refine Agrees.after ?_ (run_charactersBetween h hWord _)
        exact agrees_ok _
      · rw [if_neg hStart, if_neg hStart]
        exact (agrees_refuse _).after (run_get _)

theorem run_expect {c : Char} (h : s <:+ text) (hExpect : Parse.expect c s = .ok rest) :
    (expect text c).run (placeOf text s) = .ok ((), placeOf text rest) := by
  rw [agrees_expect c h, hExpect]
  rfl

theorem follows_name (text : List Char) : Follows text (name text) Parse.name :=
  ⟨Parse.keepsTo_name, fun _ => agrees_name⟩

theorem run_name {word : String} (h : s <:+ text) (hName : Parse.name s = .ok (word, rest)) :
    (name text).run (placeOf text s) = .ok (word, placeOf text rest) := by
  rw [agrees_name h, hName]
  rfl

theorem run_peekPastName {word : String} (h : s <:+ text)
    (hName : Parse.name s = .ok (word, rest)) :
    (peekPastName text).run (placeOf text s) =
      .ok ((Text.skipSpace rest).head?, placeOf text (Text.skipSpace rest)) := by
  have hRest := ((Parse.keepsTo_name s).rest _ hName).trans h
  rw [StateT.run, peekPastName, run_name h hName]
  dsimp only
  rw [run_bind_of_ok (run_skipSpace hRest)]
  exact run_peek ((Parse.skipSpace_suffix rest).trans hRest)

/-- Looking past a name leaves the cursor where it was. -/
theorem run_charAfterName {word : String} (h : s <:+ text)
    (hName : Parse.name s = .ok (word, rest)) :
    (charAfterName text).run (placeOf text s) =
      .ok ((Text.skipSpace rest).head?, placeOf text s) := by
  rw [charAfterName, run_bind_of_ok (run_get _), run_bind_of_ok (run_peekPastName h hName),
    run_bind_of_ok (run_moveTo h _)]
  rfl

/-- White space is looked past without moving the cursor. -/
theorem run_lookahead (h : s <:+ text) :
    (lookahead (do skipSpace text; peek text)).run (placeOf text s) =
      .ok ((Text.skipSpace s).head?, placeOf text s) := by
  rw [lookahead, run_bind_of_ok (run_get _), bind_assoc, run_bind_of_ok (run_skipSpace h),
    run_bind_of_ok (run_peek ((Parse.skipSpace_suffix s).trans h))]
  rfl

theorem run_atWord (word : List Char) (h : s <:+ text) :
    (atWord text word).run (placeOf text s) =
      .ok ((Parse.keyword? word s).isSome, placeOf text s) := by
  rw [atWord, run_bind_of_ok (run_get _), run_bind_of_ok (run_charactersFrom h _), Parse.keyword?]
  by_cases hPrefix : word.isPrefixOf s = true
  · obtain ⟨rest, rfl⟩ := List.isPrefixOf_iff_prefix.1 hPrefix
    have hRest := (List.suffix_append word rest).trans h
    rw [if_pos hPrefix, hPrefix, Bool.true_and, List.drop_left, Text.placeOf_append_add h,
      run_bind_of_ok (run_charactersFrom hRest _)]
    cases rest.head?.any Parse.isNameChar <;> rfl
  · rw [if_neg hPrefix, Bool.eq_false_iff.2 hPrefix]
    rfl

/-- What a scan for an operator gives for what a reader gives.  Without an operator the cursor stays. -/
def operatorAt (text s : List Char) (read : Option (Parse.Operator × List Char)) :
    Option Parse.Operator × Nat :=
  match read with
  | some (operator, rest) => (some operator, placeOf text rest)
  | none => (none, placeOf text s)

theorem run_wordOperator? (word : List Char) (operator : Parse.Operator) (h : s <:+ text) :
    (wordOperator? text word operator).run (placeOf text s) =
      .ok (operatorAt text s ((Parse.keyword? word s).map (operator, ·))) := by
  rw [wordOperator?, run_bind_of_ok (run_atWord word h)]
  cases hWord : Parse.keyword? word s with
  | none => rfl
  | some rest =>
      obtain ⟨rfl, -⟩ := Parse.keyword?_eq_some_iff.1 hWord
      rw [Option.isSome_some, if_pos rfl, run_bind_of_ok (run_advance h rfl)]
      rfl

section Number

/-- What is left after a point and digits, if a point comes first. -/
def afterFraction : List Char → List Char
  | '.' :: rest => rest.dropWhile Char.isDigit
  | s => s

theorem run_fraction (h : s <:+ text) :
    (fraction text).run (placeOf text s) = .ok ((), placeOf text (afterFraction s)) := by
  rw [fraction, run_bind_of_ok (run_peek h)]
  by_cases hPoint : s.head? = some '.'
  · obtain ⟨rest, rfl⟩ := List.head?_eq_some_iff.1 hPoint
    rw [if_pos hPoint, run_bind_of_ok (run_next h)]
    exact run_skip ((List.suffix_cons _ rest).trans h) _
  · rw [if_neg hPoint, afterFraction]
    · rfl
    · rintro rest rfl
      exact hPoint rfl

theorem takeWhile_ne_nil {p : Char → Bool} (h : s.head?.any p = true) :
    s.takeWhile p ≠ [] := by
  cases s with
  | nil => cases h
  | cons c rest =>
      have hFirst : p c = true := h
      rw [List.takeWhile_cons_of_pos hFirst]
      exact List.cons_ne_nil _ _

/-- A number is taken off with the decimal text that it is the value of. -/
theorem exists_decimal_of_numberLiteral (hStart : s.head?.any Char.isDigit = true ∨
      s.head? = some '.' ∧ s.tail.head?.any Char.isDigit = true) :
    ∃ digits, s = digits ++ afterFraction (s.dropWhile Char.isDigit) ∧
      isDecimalText digits = true ∧
      Parse.numberLiteral s =
        (.ofDecimalText false digits, afterFraction (s.dropWhile Char.isDigit)) := by
  have hWhole := List.all_takeWhile (p := Char.isDigit) (l := s)
  have hSplit := List.takeWhile_append_dropWhile (p := Char.isDigit) (l := s)
  have hSome : s.takeWhile Char.isDigit ≠ [] ∨
      ∃ rest, s.dropWhile Char.isDigit = '.' :: rest ∧ rest.takeWhile Char.isDigit ≠ [] := by
    refine hStart.imp takeWhile_ne_nil ?_
    rintro ⟨hPoint, hDigit⟩
    obtain ⟨rest, rfl⟩ := List.head?_eq_some_iff.1 hPoint
    exact ⟨rest, rfl, takeWhile_ne_nil hDigit⟩
  rw [Parse.numberLiteral]
  split
  · rename_i rest hPoint
    have hFraction := List.all_takeWhile (p := Char.isDigit) (l := rest)
    have hDigits : s.takeWhile Char.isDigit ≠ [] ∨ rest.takeWhile Char.isDigit ≠ [] := by
      refine hSome.imp_right ?_
      rintro ⟨other, hOther, hDigit⟩
      rw [hPoint] at hOther
      cases hOther
      exact hDigit
    rw [hPoint] at hSplit ⊢
    have hSpells : SpellsDecimal (s.takeWhile Char.isDigit ++ '.' :: rest.takeWhile Char.isDigit) _ _ :=
      .point hDigits hWhole hFraction
    refine ⟨s.takeWhile Char.isDigit ++ '.' :: rest.takeWhile Char.isDigit, ?_,
      hSpells.isDecimalText, ?_⟩
    · rw [afterFraction, List.append_assoc, List.cons_append, List.takeWhile_append_dropWhile, hSplit]
    · rw [hSpells.ofDecimalText_eq, afterFraction]
  · rename_i hNone
    have hDigits := hSome.resolve_right fun hPoint => hNone hPoint.choose hPoint.choose_spec.1
    have hAfter : afterFraction (s.dropWhile Char.isDigit) = s.dropWhile Char.isDigit := by
      rw [afterFraction.eq_def]
      split
      · rename_i rest hPoint
        exact absurd hPoint (hNone rest)
      · rfl
    have hSpells : SpellsDecimal (s.takeWhile Char.isDigit) _ _ := .digits hDigits hWhole
    refine ⟨s.takeWhile Char.isDigit, ?_, hSpells.isDecimalText, ?_⟩
    · rw [hAfter, hSplit]
    · rw [hAfter, hSpells.ofDecimalText_eq]

theorem agrees_numberLiteral (h : s <:+ text) (hStart : s.head?.any Char.isDigit = true ∨
      s.head? = some '.' ∧ s.tail.head?.any Char.isDigit = true) :
    Agrees text s (numberLiteral text) (.ok (Parse.numberLiteral s)) := by
  obtain ⟨digits, hDigits, hDecimal, hRead⟩ := exists_decimal_of_numberLiteral hStart
  have hSkip := (List.dropWhile_suffix Char.isDigit (l := s)).trans h
  rw [numberLiteral]
  refine Agrees.after ?_ (run_get _)
  refine Agrees.after ?_ (run_skip h _)
  refine Agrees.after ?_ (run_fraction hSkip)
  refine Agrees.after ?_ (run_get _)
  refine Agrees.after ?_ (run_charactersBetween h hDigits _)
  rw [if_pos hDecimal, hRead]
  exact agrees_ok _

end Number

theorem run_closeWithin (quote : Char) (start : Nat) {bound : Nat} (h : s <:+ text)
    (hBound : s.length < bound) :
    (closeWithin text quote start bound).run (placeOf text s) =
      match s.dropWhile (· != quote) with
      | [] => .error (.refused ⟨.unterminatedString, start⟩)
      | _ :: rest => .ok ((), placeOf text rest) := by
  induction bound generalizing s with
  | zero => exact absurd hBound (Nat.not_lt_zero _)
  | succ bound ih =>
      rw [closeWithin]
      cases s with
      | nil =>
          rw [run_bind_of_ok (run_next_nil text)]
          rfl
      | cons c rest =>
          rw [run_bind_of_ok (run_next h)]
          dsimp only
          by_cases hQuote : c = quote
          · rw [if_pos hQuote, List.dropWhile_cons_of_neg (by simpa using hQuote)]
            rfl
          · rw [if_neg hQuote, List.dropWhile_cons_of_pos (by simpa using hQuote)]
            exact ih ((List.suffix_cons c rest).trans h) (Nat.lt_of_succ_lt_succ hBound)

theorem agrees_textLiteral {quote : Char} (h : quote :: s <:+ text)
    (hQuote : quote = '"' ∨ quote = '\x27') :
    Agrees text (quote :: s) (textLiteral text) (Parse.textLiteral quote s) := by
  have hBody := (List.suffix_cons quote s).trans h
  have hClose := run_closeWithin quote (placeOf text (quote :: s)) hBody
    (Nat.lt_succ_of_le hBody.length_le)
  rw [textLiteral]
  refine Agrees.after ?_ (run_get _)
  refine Agrees.after ?_ (run_next h)
  dsimp only
  rw [if_pos (by simpa using hQuote)]
  refine Agrees.after ?_ (run_get _)
  rw [Parse.textLiteral]
  cases hEnd : s.dropWhile (· != quote) with
  | nil =>
      rw [hEnd] at hClose
      rw [Agrees, StateT.run_bind, hClose]
      rfl
  | cons c rest =>
      rw [hEnd] at hClose
      have hSplit := List.takeWhile_append_dropWhile (p := (· != quote)) (l := s)
      have hHead := List.head?_dropWhile_not (· != quote) s
      rw [hEnd] at hSplit hHead
      obtain rfl : c = quote := by simpa using hHead
      have hRest : [c] ++ rest <:+ text := List.IsSuffix.trans ⟨_, hSplit⟩ hBody
      have hStop : placeOf text rest - c.utf8Size = placeOf text (c :: rest) :=
        Nat.sub_eq_of_eq_add (Text.placeOf_append_add hRest).symm
      refine Agrees.after ?_ hClose
      refine Agrees.after ?_ (run_get _)
      rw [hStop]
      refine Agrees.after ?_ (run_charactersBetween hBody hSplit.symm _)
      exact agrees_ok _

section Choice

variable {yes no : Scan β} {result : Except Halt (β × Nat)}

theorem run_if_peek {c : Char} (h : s <:+ text)
    (hYes : ∀ rest, s = c :: rest → yes.run (placeOf text s) = result)
    (hNo : s.head? ≠ some c → no.run (placeOf text s) = result) :
    (peek text >>= fun found => if found = some c then yes else no).run (placeOf text s) = result := by
  rw [run_bind_of_ok (run_peek h)]
  by_cases hHead : s.head? = some c
  · obtain ⟨rest, hStart⟩ := List.head?_eq_some_iff.1 hHead
    rw [if_pos hHead]
    exact hYes rest hStart
  · rw [if_neg hHead]
    exact hNo hHead

theorem run_if_peekBytes {word : List Char} {count : Nat} (h : s <:+ text)
    (hCount : Text.byteLength word = count) (hWord : word ≠ [])
    (hYes : ∀ rest, s = word ++ rest → yes.run (placeOf text s) = result)
    (hNo : ¬word <+: s → no.run (placeOf text s) = result) :
    (peekBytes text count >>= fun found => if found = word then yes else no).run (placeOf text s) =
      result := by
  obtain ⟨found, hRun, hFound⟩ := exists_run_peekBytes h count
  rw [run_bind_of_ok hRun]
  by_cases hPrefix : word <+: s
  · obtain ⟨rest, hStart⟩ := hPrefix
    rw [if_pos ((hFound word hCount hWord).2 ⟨rest, hStart⟩)]
    exact hYes rest hStart.symm
  · rw [if_neg fun hEq => hPrefix ((hFound word hCount hWord).1 hEq)]
    exact hNo hPrefix

theorem run_if_prefix {word : List Char}
    (hYes : ∀ rest, s = word ++ rest → yes.run (placeOf text s) = result)
    (hNo : ¬word <+: s → no.run (placeOf text s) = result) :
    (if word.isPrefixOf s then yes else no).run (placeOf text s) = result := by
  by_cases hPrefix : word <+: s
  · obtain ⟨rest, hStart⟩ := hPrefix
    rw [if_pos (List.isPrefixOf_iff_prefix.2 ⟨rest, hStart⟩)]
    exact hYes rest hStart.symm
  · rw [if_neg fun hTest => hPrefix (List.isPrefixOf_iff_prefix.1 hTest)]
    exact hNo hPrefix

end Choice

theorem agrees_if_peek {c : Char} {yes no : Scan β}
    {outcome : Except Parse.Fault (β × List Char)} (h : s <:+ text)
    (hYes : ∀ rest, s = c :: rest → Agrees text s yes outcome)
    (hNo : s.head? ≠ some c → Agrees text s no outcome) :
    Agrees text s (peek text >>= fun found => if found = some c then yes else no) outcome :=
  run_if_peek h hYes hNo

theorem agrees_if_peekBytes {word : List Char} {count : Nat} {yes no : Scan β}
    {outcome : Except Parse.Fault (β × List Char)} (h : s <:+ text)
    (hCount : Text.byteLength word = count) (hWord : word ≠ [])
    (hYes : ∀ rest, s = word ++ rest → Agrees text s yes outcome)
    (hNo : ¬word <+: s → Agrees text s no outcome) :
    Agrees text s (peekBytes text count >>= fun found => if found = word then yes else no) outcome :=
  run_if_peekBytes h hCount hWord hYes hNo

/-- Two characters come first, or only the one does, or neither. -/
theorem agrees_twice_or_once {c : Char} {s : List Char} {twice once no : Scan β}
    {outcome : Except Parse.Fault (β × List Char)} (hs : s <:+ text) (hSize : c.utf8Size = 1)
    (hTwice : ∀ rest, s = c :: c :: rest → Agrees text s twice outcome)
    (hOnce : ∀ rest, s = c :: rest → rest.head? ≠ some c → Agrees text s once outcome)
    (hNo : s.head? ≠ some c → Agrees text s no outcome) :
    Agrees text s (do
      if (← peekBytes text 2) = [c, c] then twice
      else if (← peek text) = some c then once
      else no) outcome := by
  refine agrees_if_peekBytes hs ?_ nofun hTwice fun hNotTwice => ?_
  · simp [hSize]
  · refine agrees_if_peek hs (fun rest hStart => hOnce rest hStart fun hHead => hNotTwice ?_) hNo
    obtain ⟨inner, rfl⟩ := List.head?_eq_some_iff.1 hHead
    exact ⟨inner, hStart.symm⟩

/-- A name begins with a character that can begin a name. -/
theorem isNameStart_of_name {word : String} (hName : Parse.name s = .ok (word, rest)) :
    s.head?.any Parse.isNameStart = true := by
  cases s with
  | nil => cases hName
  | cons c s =>
      rw [Parse.name] at hName
      split at hName
      · rename_i hStart
        exact hStart
      · cases hName

theorem exists_name_of_start (hStart : s.head?.any Parse.isNameStart = true) :
    ∃ word rest, Parse.name s = .ok (word, rest) := by
  cases s with
  | nil => cases hStart
  | cons c s =>
      have hFirst : Parse.isNameStart c = true := hStart
      exact ⟨_, _, if_pos hFirst⟩

theorem agrees_axis (h : s <:+ text) :
    Agrees text s (axis text) (Parse.axis s) := by
  rw [axis]
  refine agrees_if_peek h (fun rest hAt => ?_) fun hNone => ?_
  · subst hAt
    refine Agrees.after ?_ (run_next h)
    exact agrees_ok _
  · refine Agrees.after ?_ (run_get _)
    refine Agrees.after ?_ (run_peek h)
    by_cases hStart : s.head?.any Parse.isNameStart = true
    · rw [if_pos hStart]
      obtain ⟨word, rest, hName⟩ := exists_name_of_start hStart
      have hRest := ((Parse.keepsTo_name s).rest _ hName).trans h
      have hSkip := (Parse.skipSpace_suffix rest).trans hRest
      refine Agrees.after ?_ (run_name h hName)
      refine Agrees.after ?_ (run_skipSpace hRest)
      refine agrees_if_peekBytes hSkip rfl nofun (fun inner hColons => ?_) fun hOther => ?_
      · rw [Parse.axis_of_colons hName hColons]
        rw [hColons] at hSkip ⊢
        refine Agrees.after ?_ (run_advance hSkip rfl)
        cases Axis.ofName? word with
        | some axis => exact agrees_ok _
        | none => exact agrees_refuse _
      · have hNot : Parse.axis s = .ok (.child, s) := by
          refine Parse.axis_of_not hNone fun word' rest' inner hName' hColons => hOther ?_
          rw [hName] at hName'
          cases hName'
          exact ⟨inner, hColons.symm⟩
        rw [hNot]
        refine Agrees.after ?_ (run_moveTo h _)
        exact agrees_ok _
    · have hNot : Parse.axis s = .ok (.child, s) :=
        Parse.axis_of_not hNone fun word rest _ hName _ => hStart (isNameStart_of_name hName)
      rw [if_neg hStart, hNot]
      exact agrees_ok _

theorem follows_axis (text : List Char) : Follows text (axis text) Parse.axis :=
  ⟨Parse.keepsTo_axis, fun _ => agrees_axis⟩

theorem nodeTest_of_head?_ne (hStar : (Text.skipSpace s).head? ≠ some '*') :
    Parse.nodeTest s = (do
      let (word, rest) ← Parse.name (Text.skipSpace s)
      if Parse.startsPrefixed rest then .error ⟨.namespacePrefix, rest⟩
      else
        match Text.skipSpace rest with
        | '(' :: inner =>
            match Parse.nodeType word with
            | .error cause => .error ⟨cause, Text.skipSpace s⟩
            | .ok test => do
                let rest ← Parse.expect ')' inner
                return (test, rest)
        | _ => return (.named word, rest)) := by
  rw [Parse.nodeTest]
  split
  · rename_i hStart
    exact absurd (congrArg List.head? hStart) hStar
  · rfl

theorem startsPrefixed_eq (s : List Char) :
    Parse.startsPrefixed s = (decide (s.head? = some ':') && decide (s.tail.head? ≠ some ':')) := by
  rw [Parse.startsPrefixed.eq_def]
  split
  · rfl
  · rename_i rest hOne
    have hNext : rest.head? ≠ some ':' := by
      intro hHead
      obtain ⟨inner, rfl⟩ := List.head?_eq_some_iff.1 hHead
      exact hOne inner rfl
    simp [hNext]
  · rename_i hNone
    have hFirst : s.head? ≠ some ':' := by
      intro hHead
      obtain ⟨rest, rfl⟩ := List.head?_eq_some_iff.1 hHead
      exact hNone rest rfl
    simp [hFirst]

theorem agrees_nodeTest (h : s <:+ text) :
    Agrees text s (nodeTest text) (Parse.nodeTest s) := by
  have hSkip := (Parse.skipSpace_suffix s).trans h
  rw [nodeTest]
  refine Agrees.after ?_ (run_skipSpace h)
  refine agrees_if_peek hSkip (fun rest hStar => ?_) fun hOther => ?_
  · rw [Parse.nodeTest, hStar]
    rw [hStar] at hSkip
    refine Agrees.after ?_ (run_next hSkip)
    exact agrees_ok _
  · rw [nodeTest_of_head?_ne hOther]
    refine Agrees.after ?_ (run_get _)
    refine (follows_name text).bind hSkip fun word rest hRest => ?_
    have hRest := hRest.trans hSkip
    refine Agrees.after ?_ (run_peek hRest)
    refine Agrees.after ?_ (run_peekSecond hRest)
    dsimp only
    rw [← startsPrefixed_eq]
    cases Parse.startsPrefixed rest with
    | true =>
        rw [if_pos rfl, if_pos rfl]
        exact (agrees_refuse _).after (run_get _)
    | false =>
        rw [if_neg Bool.false_ne_true, if_neg Bool.false_ne_true]
        refine Agrees.after ?_ (run_lookahead hRest)
        by_cases hCall : (Text.skipSpace rest).head? = some '('
        · obtain ⟨inner, hStart⟩ := List.head?_eq_some_iff.1 hCall
          have hInner := (Parse.suffix_of_skipSpace_eq_cons hStart).trans hRest
          rw [if_neg (not_not_intro hCall), hStart]
          cases Parse.nodeType word with
          | error cause => exact agrees_refuse _
          | ok test =>
              refine Agrees.after ?_ (run_expect hRest (Parse.expect_eq_ok_iff.2 hStart))
              exact agrees_expect_bind hInner fun _ _ => agrees_ok _
        · rw [if_pos hCall]
          split
          · rename_i hStart
            exact absurd (congrArg List.head? hStart) hCall
          · exact agrees_ok _

theorem follows_nodeTest (text : List Char) : Follows text (nodeTest text) Parse.nodeTest :=
  ⟨Parse.keepsTo_nodeTest, fun _ => agrees_nodeTest⟩

end Lexeme

end Scan

end CborPath
