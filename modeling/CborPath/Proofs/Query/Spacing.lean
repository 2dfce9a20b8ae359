import CborPath.Proofs.Query.Boundaries
import CborPath.Proofs.Query.Operands

/-!
# Texts that differ in white space alone

A text is respaced by replacing its gaps with other gaps.  Gaps are white space outside of literals;
between other characters they are not empty, and at the end they may be.  What is behind a quote that
nothing closes makes no difference, since no expression goes on there.

What the smallest readers take off a text they take off the respaced one as well, and what they leave is
respaced again: none of them goes on across a gap, or looks at the white space of which it consists.
-/

namespace CborPath

open Text (isSpace skipSpace)

/-- Whether a character opens and closes literals. -/
def isQuote (c : Char) : Bool :=
  c == '"' || c == '\x27'

/-- Whether a character is neither white space nor a quote. -/
def isPlain (c : Char) : Bool :=
  !isSpace c && !isQuote c

/-- Whether two texts differ in white space outside of literals alone. -/
inductive Respaced : List Char → List Char → Prop
  | blank {gap gap' : List Char} :
      gap.all isSpace = true → gap'.all isSpace = true → Respaced gap gap'
  | plain {c : Char} {s t : List Char} :
      isPlain c = true → Respaced s t → Respaced (c :: s) (c :: t)
  | gap {gap gap' s t : List Char} :
      gap.all isSpace = true → gap'.all isSpace = true → gap ≠ [] → gap' ≠ [] → Respaced s t →
        Respaced (gap ++ s) (gap' ++ t)
  | literal {quote : Char} {body s t : List Char} :
      isQuote quote = true → quote ∉ body → Respaced s t →
        Respaced (quote :: (body ++ quote :: s)) (quote :: (body ++ quote :: t))
  | unclosed {quote : Char} {body body' : List Char} :
      isQuote quote = true → quote ∉ body → quote ∉ body' → Respaced (quote :: body) (quote :: body')

section Characters

variable {c : Char}

theorem isPlain_of_isSpace (h : isSpace c = true) :
    isPlain c = false := by
  rw [isPlain, h]
  rfl

theorem isPlain_of_isQuote (h : isQuote c = true) :
    isPlain c = false := by
  rw [isPlain, h, Bool.not_true, Bool.and_false]

theorem isSpace_of_isQuote (h : isQuote c = true) :
    isSpace c = false :=
  Parse.isSpace_eq_false_of (by decide +kernel) h

theorem isSpace_of_isPlain (h : isPlain c = true) :
    isSpace c = false := by
  rw [Bool.eq_false_iff]
  intro hSpace
  rw [isPlain_of_isSpace hSpace] at h
  cases h

/-- A kind of characters to which neither white space nor a quote belongs. -/
theorem isPlain_of {p : Char → Bool} (hSpaces : Parse.spaces.any p = false) (hQuotes : p '"' = false)
    (hQuotes' : p '\x27' = false) (h : p c = true) :
    isPlain c = true := by
  have hQuote : isQuote c = false := by
    rw [isQuote, Bool.or_eq_false_iff, beq_eq_false_iff_ne, beq_eq_false_iff_ne]
    constructor
    · rintro rfl
      rw [hQuotes] at h
      cases h
    · rintro rfl
      rw [hQuotes'] at h
      cases h
  rw [isPlain, Parse.isSpace_eq_false_of hSpaces h, hQuote]
  rfl

theorem isPlain_of_isNameStart (h : Parse.isNameStart c = true) :
    isPlain c = true :=
  isPlain_of (by decide +kernel) (by decide) (by decide) h

theorem any_isNameChar_spaces :
    Parse.spaces.any Parse.isNameChar = false := by
  decide +kernel

theorem isPlain_of_isNameChar (h : Parse.isNameChar c = true) :
    isPlain c = true :=
  isPlain_of any_isNameChar_spaces (by decide) (by decide) h

theorem isPlain_of_isDigit (h : c.isDigit = true) :
    isPlain c = true :=
  isPlain_of_isNameChar (Parse.isNameChar_of_isDigit h)

end Characters

/-- A text is cut in one way only at the first place of a character. -/
theorem eq_of_append_cons_eq {mark : Char} {body body' s s' : List Char} (h : mark ∉ body)
    (h' : mark ∉ body') (hText : body ++ mark :: s = body' ++ mark :: s') :
    body = body' ∧ s = s' := by
  have hPart : ∀ {body s : List Char}, mark ∉ body →
      Parse.textLiteral mark (body ++ mark :: s) = .ok (String.ofList body, s) := by
    intro body s hAbsent
    exact Parse.textLiteral_eq_ok_iff.2 ⟨by rw [String.toList_ofList], by rwa [String.toList_ofList]⟩
  have hSame := hPart (s := s) h
  rw [hText, hPart h'] at hSame
  obtain ⟨hBody, rfl⟩ := Prod.mk.inj (Except.ok.inj hSame)
  exact ⟨(String.ofList_injective hBody).symm, rfl⟩

namespace Respaced

variable {s t rest : List Char} {c : Char}

theorem symm (h : Respaced s t) :
    Respaced t s := by
  induction h with
  | blank hGap hGap' => exact .blank hGap' hGap
  | plain hPlain _ ih => exact .plain hPlain ih
  | gap hGap hGap' hSome hSome' _ ih => exact .gap hGap' hGap hSome' hSome ih
  | literal hQuote hAbsent _ ih => exact .literal hQuote hAbsent ih
  | unclosed hQuote hAbsent hAbsent' => exact .unclosed hQuote hAbsent' hAbsent

/-- Skipping the white space before a text and before the respaced one. -/
theorem skipSpace (h : Respaced s t) :
    Respaced (skipSpace s) (skipSpace t) := by
  induction h with
  | blank hGap hGap' =>
      rw [Text.skipSpace_of_all hGap, Text.skipSpace_of_all hGap']
      exact .blank rfl rfl
  | plain hPlain hRest _ =>
      rw [Text.skipSpace_cons_of_not_isSpace (isSpace_of_isPlain hPlain),
        Text.skipSpace_cons_of_not_isSpace (isSpace_of_isPlain hPlain)]
      exact .plain hPlain hRest
  | gap hGap hGap' _ _ _ ih =>
      rwa [Text.skipSpace_append_of_all hGap, Text.skipSpace_append_of_all hGap']
  | literal hQuote hAbsent hRest _ =>
      rw [Text.skipSpace_cons_of_not_isSpace (isSpace_of_isQuote hQuote),
        Text.skipSpace_cons_of_not_isSpace (isSpace_of_isQuote hQuote)]
      exact .literal hQuote hAbsent hRest
  | unclosed hQuote hAbsent hAbsent' =>
      rw [Text.skipSpace_cons_of_not_isSpace (isSpace_of_isQuote hQuote),
        Text.skipSpace_cons_of_not_isSpace (isSpace_of_isQuote hQuote)]
      exact .unclosed hQuote hAbsent hAbsent'

/-- Respaced texts begin with the same character, or neither of them with one that is not white space. -/
theorem head?_any {p : Char → Bool} (h : Respaced s t) (hSpaces : Parse.spaces.any p = false) :
    s.head?.any p = t.head?.any p := by
  have hGap : ∀ {gap : List Char}, gap.all isSpace = true → gap.head?.any p = false := by
    intro gap hAll
    cases gap with
    | nil => rfl
    | cons c gap =>
        rw [List.all_cons, Bool.and_eq_true] at hAll
        exact Bool.eq_false_iff.2 fun hMark =>
          Bool.false_ne_true ((Parse.isSpace_eq_false_of hSpaces hMark).symm.trans hAll.1)
  cases h with
  | blank hAll hAll' => rw [hGap hAll, hGap hAll']
  | plain _ _ => rfl
  | gap hAll hAll' hSome hSome' _ =>
      obtain ⟨d, gap, rfl⟩ := List.exists_cons_of_ne_nil hSome
      obtain ⟨d', gap', rfl⟩ := List.exists_cons_of_ne_nil hSome'
      exact (hGap hAll).trans (hGap hAll').symm
  | literal _ _ _ => rfl
  | unclosed _ _ _ => rfl

theorem head?_eq_some_iff (h : Respaced s t) (hMark : isSpace c = false) :
    s.head? = some c ↔ t.head? = some c := by
  have hSpaces : Parse.spaces.any (· == c) = false := by
    have hAll : Parse.spaces.all isSpace = true := by decide +kernel
    rw [List.any_eq_false]
    intro d hMem hEq
    rw [← eq_of_beq hEq, List.all_eq_true.1 hAll d hMem] at hMark
    cases hMark
  have hBegins : ∀ s : List Char, s.head? = some c ↔ s.head?.any (· == c) = true := by
    intro s
    cases s <;> simp
  rw [hBegins, hBegins, h.head?_any hSpaces]

/-- A plain character is the first of both texts, and what follows is respaced. -/
theorem cons (h : Respaced (c :: s) t) (hPlain : isPlain c = true) :
    ∃ rest, t = c :: rest ∧ Respaced s rest := by
  generalize hText : c :: s = text at h
  have hSpace := isSpace_of_isPlain hPlain
  cases h with
  | blank hGap _ =>
      rw [← hText, List.all_cons, hSpace] at hGap
      cases hGap
  | plain _ hRest =>
      cases hText
      exact ⟨_, rfl, hRest⟩
  | gap hGap _ hSome _ _ =>
      obtain ⟨d, gap, rfl⟩ := List.exists_cons_of_ne_nil hSome
      obtain ⟨rfl, -⟩ := List.cons.inj hText
      rw [List.all_cons, hSpace] at hGap
      cases hGap
  | literal hQuote _ _ =>
      cases hText
      rw [isPlain_of_isQuote hQuote] at hPlain
      cases hPlain
  | unclosed hQuote _ _ =>
      cases hText
      rw [isPlain_of_isQuote hQuote] at hPlain
      cases hPlain

theorem append {word : List Char} (h : Respaced (word ++ s) t) (hPlain : ∀ c ∈ word, isPlain c = true) :
    ∃ rest, t = word ++ rest ∧ Respaced s rest := by
  induction word generalizing t with
  | nil => exact ⟨t, rfl, h⟩
  | cons c word ih =>
      obtain ⟨hFirst, hOthers⟩ := List.forall_mem_cons.1 hPlain
      obtain ⟨tail, rfl, hTail⟩ := h.cons hFirst
      obtain ⟨rest, rfl, hRest⟩ := ih hTail hOthers
      exact ⟨rest, rfl, hRest⟩

/-- A closed literal stands at the start of both texts, and what follows is respaced. -/
theorem closed {quote : Char} {body : List Char} (h : Respaced (quote :: (body ++ quote :: s)) t)
    (hQuote : isQuote quote = true) (hAbsent : quote ∉ body) :
    ∃ rest, t = quote :: (body ++ quote :: rest) ∧ Respaced s rest := by
  generalize hText : quote :: (body ++ quote :: s) = text at h
  have hSpace := isSpace_of_isQuote hQuote
  cases h with
  | blank hGap _ =>
      rw [← hText, List.all_cons, hSpace] at hGap
      cases hGap
  | plain hPlain _ =>
      cases hText
      rw [isPlain_of_isQuote hQuote] at hPlain
      cases hPlain
  | gap hGap _ hSome _ _ =>
      obtain ⟨d, gap, rfl⟩ := List.exists_cons_of_ne_nil hSome
      obtain ⟨rfl, -⟩ := List.cons.inj hText
      rw [List.all_cons, hSpace] at hGap
      cases hGap
  | literal _ hAbsent' hRest =>
      obtain ⟨rfl, hBody⟩ := List.cons.inj hText
      obtain ⟨rfl, rfl⟩ := eq_of_append_cons_eq hAbsent hAbsent' hBody
      exact ⟨_, rfl, hRest⟩
  | unclosed _ hAbsent' _ =>
      obtain ⟨rfl, rfl⟩ := List.cons.inj hText
      exact absurd (List.mem_append_right _ (List.mem_cons_self ..)) hAbsent'

/-- What comes first after white space, if it is a plain character. -/
theorem starts (h : Respaced s t) (hStart : Text.skipSpace s = c :: rest) (hPlain : isPlain c = true) :
    ∃ rest', Text.skipSpace t = c :: rest' ∧ Respaced rest rest' := by
  have hSkip := h.skipSpace
  rw [hStart] at hSkip
  exact hSkip.cons hPlain

theorem head?_skipSpace_ne (h : Respaced s t) (hMark : isSpace c = false)
    (hNone : (Text.skipSpace s).head? ≠ some c) :
    (Text.skipSpace t).head? ≠ some c :=
  fun hHead => hNone ((h.skipSpace.head?_eq_some_iff hMark).2 hHead)

end Respaced

/-- The quote of the literal that one is in after a further character. -/
def quoteAfter : Option Char → Char → Option Char
  | none, c => if isQuote c then some c else none
  | some quote, c => if c = quote then none else some quote

/-- The quote of the literal that a text ends in, if it ends in one. -/
def openQuote? (text : List Char) : Option Char :=
  text.foldl quoteAfter none

/-- Whether two texts may stand for each other in a literal with the given quote, or outside of literals.
In a literal they may if neither of them closes it. -/
def Interchangeable : Option Char → List Char → List Char → Prop
  | none, s, t => Respaced s t
  | some quote, s, t => quote ∉ s ∧ quote ∉ t

/-- What follows the same text, in a literal or outside. -/
theorem respaced_append_and (text : List Char) {s t : List Char} :
    (Interchangeable (text.foldl quoteAfter none) s t → Respaced (text ++ s) (text ++ t)) ∧
      ∀ quote body, isQuote quote = true → quote ∉ body →
        Interchangeable (text.foldl quoteAfter (some quote)) s t →
          Respaced (quote :: (body ++ (text ++ s))) (quote :: (body ++ (text ++ t))) := by
  induction text with
  | nil =>
      refine ⟨id, fun quote body hQuote hAbsent h => .unclosed hQuote ?_ ?_⟩
      · exact fun hMem => (List.mem_append.1 hMem).elim hAbsent h.1
      · exact fun hMem => (List.mem_append.1 hMem).elim hAbsent h.2
  | cons c text ih =>
      obtain ⟨ihOutside, ihInside⟩ := ih
      refine ⟨fun h => ?_, fun quote body hQuote hAbsent h => ?_⟩
      · rw [List.foldl_cons, quoteAfter] at h
        by_cases hQuote : isQuote c = true
        · rw [if_pos hQuote] at h
          exact ihInside c [] hQuote List.not_mem_nil h
        · rw [if_neg hQuote] at h
          by_cases hSpace : isSpace c = true
          · have hGap : [c].all isSpace = true := by rw [List.all_cons, hSpace]; rfl
            have hRest : Respaced ([c] ++ (text ++ s)) ([c] ++ (text ++ t)) :=
              .gap hGap hGap (List.cons_ne_nil c []) (List.cons_ne_nil c []) (ihOutside h)
            exact hRest
          · exact .plain (by simp [isPlain, hSpace, hQuote]) (ihOutside h)
      · rw [List.foldl_cons, quoteAfter] at h
        by_cases hClosed : c = quote
        · subst hClosed
          rw [if_pos rfl] at h
          exact .literal hQuote hAbsent (ihOutside h)
        · rw [if_neg hClosed] at h
          have hMore : quote ∉ body ++ [c] := by simp [hAbsent, Ne.symm hClosed]
          have hInside := ihInside quote (body ++ [c]) hQuote hMore h
          rwa [List.append_assoc, List.append_assoc] at hInside

theorem respaced_append {text s t : List Char} (h : Interchangeable (openQuote? text) s t) :
    Respaced (text ++ s) (text ++ t) :=
  (respaced_append_and text).1 h

theorem respaced_refl (text : List Char) :
    Respaced text text := by
  have hEnd : Interchangeable (openQuote? text) [] [] := by
    cases openQuote? text with
    | none => exact .blank rfl rfl
    | some quote => exact ⟨List.not_mem_nil, List.not_mem_nil⟩
  have hWhole := respaced_append hEnd
  rwa [List.append_nil] at hWhole

/-- A literal that one is in has been opened by a quote. -/
theorem isQuote_of_quoteAfter {state : Option Char} {c quote : Char}
    (hState : ∀ mark, state = some mark → isQuote mark = true) (h : quoteAfter state c = some quote) :
    isQuote quote = true := by
  cases state with
  | none =>
      rw [quoteAfter] at h
      split at h
      · rename_i hQuote
        cases h
        exact hQuote
      · cases h
  | some mark =>
      rw [quoteAfter] at h
      split at h
      · cases h
      · exact hState quote h

theorem isQuote_of_foldl_quoteAfter {text : List Char} {state : Option Char} {quote : Char}
    (hState : ∀ mark, state = some mark → isQuote mark = true)
    (h : text.foldl quoteAfter state = some quote) :
    isQuote quote = true := by
  induction text generalizing state with
  | nil => exact hState quote h
  | cons c text ih => exact ih (fun mark => isQuote_of_quoteAfter hState) h

theorem isQuote_of_openQuote? {text : List Char} {quote : Char} (h : openQuote? text = some quote) :
    isQuote quote = true := by
  have hOutside : ∀ mark, (none : Option Char) = some mark → isQuote mark = true := nofun
  exact isQuote_of_foldl_quoteAfter hOutside h

namespace Parse

/-- Whether the result of an outcome, if there is one, is also that of another, and what is left is
respaced. -/
def CarriesOver {α : Type} (outcome other : Except Fault (α × List Char)) : Prop :=
  ∀ x rest, outcome = .ok (x, rest) → ∃ rest', other = .ok (x, rest') ∧ Respaced rest rest'

section CarriesOver

variable {α β : Type} {s t rest rest' : List Char} {outcome other : Except Fault (α × List Char)}

theorem carriesOver_ok (x : α) (h : Respaced rest rest') :
    CarriesOver (.ok (x, rest)) (.ok (x, rest')) := by
  rintro _ _ ⟨⟩
  exact ⟨rest', rfl, h⟩

theorem carriesOver_error (fault : Fault) (other : Except Fault (α × List Char)) :
    CarriesOver (.error fault) other := by
  rintro _ _ ⟨⟩

theorem CarriesOver.bind {next next' : α × List Char → Except Fault (β × List Char)}
    (h : CarriesOver outcome other)
    (hNext : ∀ x rest rest', outcome = .ok (x, rest) → Respaced rest rest' →
      CarriesOver (next (x, rest)) (next' (x, rest'))) :
    CarriesOver (outcome >>= next) (other >>= next') := by
  cases outcome with
  | error fault => exact carriesOver_error fault _
  | ok read =>
      obtain ⟨rest', rfl, hRest⟩ := h read.1 read.2 rfl
      exact hNext read.1 read.2 rest' rfl hRest

theorem carriesOver_expect_bind {c : Char} {next next' : List Char → Except Fault (β × List Char)}
    (h : Respaced s t) (hPlain : isPlain c = true)
    (hNext : ∀ rest rest', expect c s = .ok rest → Respaced rest rest' →
      CarriesOver (next rest) (next' rest')) :
    CarriesOver (expect c s >>= next) (expect c t >>= next') := by
  cases hExpect : expect c s with
  | error fault => exact carriesOver_error fault _
  | ok rest =>
      obtain ⟨rest', hStart, hRest⟩ := h.starts (expect_eq_ok_iff.1 hExpect) hPlain
      rw [expect_eq_ok_iff.2 hStart]
      exact hNext rest rest' hExpect hRest

end CarriesOver

/-- Whether a reader takes the same off respaced texts. -/
def IgnoresSpacing {α : Type} (reader : Reader α) : Prop :=
  ∀ {s t}, Respaced s t → CarriesOver (reader s) (reader t)

theorem ignoresSpacing_name :
    IgnoresSpacing name := by
  intro s t h word rest hName
  obtain ⟨rfl, hWord, hNext⟩ := name_eq_ok_iff.1 hName
  have hPlain : ∀ c ∈ word.toList, isPlain c = true := by
    obtain ⟨c, others, hChars, hStart⟩ := exists_toList_eq_cons_of_isName hWord
    rw [hChars, isName, Bool.and_eq_true] at hWord
    rw [hChars]
    exact List.forall_mem_cons.2 ⟨isPlain_of_isNameStart hStart, fun d hMem =>
      isPlain_of_isNameChar (List.all_eq_true.1 hWord.2 d hMem)⟩
  obtain ⟨rest', rfl, hRest⟩ := h.append hPlain
  rw [hRest.head?_any any_isNameChar_spaces] at hNext
  exact ⟨rest', name_eq_ok_iff.2 ⟨rfl, hWord, hNext⟩, hRest⟩

theorem textLiteral_respaced {quote : Char} {body body' : List Char}
    (h : Respaced (quote :: body) (quote :: body')) (hQuote : isQuote quote = true) :
    CarriesOver (textLiteral quote body) (textLiteral quote body') := by
  intro literal rest hRead
  obtain ⟨rfl, hAbsent⟩ := textLiteral_eq_ok_iff.1 hRead
  obtain ⟨rest', hText, hRest⟩ := h.closed hQuote hAbsent
  exact ⟨rest', textLiteral_eq_ok_iff.2 ⟨(List.cons.inj hText).2, hAbsent⟩, hRest⟩

section Lexeme

variable {s t : List Char} (h : Respaced s t)
include h

theorem keyword?_respaced {word rest : List Char} (hPlain : word.all isPlain = true)
    (hWord : keyword? word s = some rest) :
    ∃ rest', keyword? word t = some rest' ∧ Respaced rest rest' := by
  obtain ⟨rfl, hNext⟩ := keyword?_eq_some_iff.1 hWord
  obtain ⟨rest', rfl, hRest⟩ := h.append (List.all_eq_true.1 hPlain)
  rw [hRest.head?_any any_isNameChar_spaces] at hNext
  exact ⟨rest', keyword?_eq_some_iff.2 ⟨rfl, hNext⟩, hRest⟩

/-- Respaced texts begin with the same digits. -/
theorem digits_respaced :
    t.takeWhile Char.isDigit = s.takeWhile Char.isDigit ∧
      Respaced (s.dropWhile Char.isDigit) (t.dropWhile Char.isDigit) := by
  have hAll : (s.takeWhile Char.isDigit).all Char.isDigit = true := List.all_takeWhile
  have hPlain : ∀ c ∈ s.takeWhile Char.isDigit, isPlain c = true := fun c hMem =>
    isPlain_of_isDigit (List.all_eq_true.1 hAll c hMem)
  rw [← List.takeWhile_append_dropWhile (p := Char.isDigit) (l := s)] at h
  obtain ⟨rest, rfl, hRest⟩ := h.append hPlain
  have hEnd : rest.head?.any Char.isDigit = false := by
    rw [← hRest.head?_any (by decide +kernel)]
    have hHead := List.head?_dropWhile_not Char.isDigit s
    cases hDrop : (s.dropWhile Char.isDigit).head? with
    | none => rfl
    | some d =>
        rw [hDrop] at hHead
        simpa using hHead
  rw [takeWhile_append_of_end hAll hEnd, dropWhile_append_of_end hAll hEnd]
  exact ⟨rfl, hRest⟩

theorem numberLiteral_respaced :
    (numberLiteral t).1 = (numberLiteral s).1 ∧ Respaced (numberLiteral s).2 (numberLiteral t).2 := by
  obtain ⟨hWhole, hRest⟩ := digits_respaced h
  rw [numberLiteral, numberLiteral, hWhole]
  by_cases hPoint : (s.dropWhile Char.isDigit).head? = some '.'
  · obtain ⟨inner, hStart⟩ := List.head?_eq_some_iff.1 hPoint
    rw [hStart] at hRest ⊢
    obtain ⟨inner', hStart', hInner⟩ := hRest.cons rfl
    obtain ⟨hFraction, hLast⟩ := digits_respaced hInner
    rw [hStart']
    exact ⟨congrArg (Binary64.ofDecimal false _) hFraction, hLast⟩
  · have hNone : (t.dropWhile Char.isDigit).head? ≠ some '.' := fun hHead =>
      hPoint ((hRest.head?_eq_some_iff rfl).2 hHead)
    split
    · rename_i hStart
      exact absurd (congrArg List.head? hStart) hNone
    · split
      · rename_i hStart
        exact absurd (congrArg List.head? hStart) hPoint
      · exact ⟨rfl, hRest⟩

theorem startsPrefixed_respaced :
    startsPrefixed t = startsPrefixed s := by
  rcases twice_or_once_or_not ':' s with ⟨inner, rfl⟩ | ⟨inner, rfl, hOne⟩ | hNone
  · obtain ⟨rest, rfl, hRest⟩ := h.cons rfl
    obtain ⟨rest, rfl, -⟩ := hRest.cons rfl
    rfl
  · obtain ⟨rest, rfl, hRest⟩ := h.cons rfl
    rw [startsPrefixed_of_once hOne, startsPrefixed_of_once fun hHead =>
      hOne ((hRest.head?_eq_some_iff rfl).2 hHead)]
  · rw [startsPrefixed_of_head?_ne hNone, startsPrefixed_of_head?_ne fun hHead =>
      hNone ((h.head?_eq_some_iff rfl).2 hHead)]

theorem startsStep_respaced :
    startsStep t = startsStep s :=
  (h.head?_any (by decide +kernel)).symm

theorem startsCall_respaced :
    startsCall t = startsCall s := by
  rw [startsCall, startsCall]
  cases hName : name s with
  | error fault =>
      cases hName' : name t with
      | error fault' => rfl
      | ok read =>
          obtain ⟨rest, hOther, -⟩ := ignoresSpacing_name h.symm _ _ hName'
          rw [hName] at hOther
          cases hOther
  | ok read =>
      obtain ⟨rest', hName', hRest⟩ := ignoresSpacing_name h _ _ hName
      rw [hName']
      dsimp only
      have hSame : ((skipSpace rest').head? == some '(') = ((skipSpace read.2).head? == some '(') := by
        rw [Bool.eq_iff_iff, beq_iff_eq, beq_iff_eq]
        exact (hRest.skipSpace.head?_eq_some_iff rfl).symm
      rw [hSame]

theorem startsPrimary_respaced {c : Char} {rest rest' : List Char} (hStart : skipSpace s = c :: rest)
    (hStart' : skipSpace t = c :: rest') :
    startsPrimary (c :: rest') = startsPrimary (c :: rest) := by
  have hSkip := h.skipSpace
  rw [hStart, hStart'] at hSkip
  rw [startsPrimary, startsPrimary, startsCall_respaced hSkip]
  by_cases hQuote : isQuote c = true
  · rw [isQuote, Bool.or_eq_true, beq_iff_eq, beq_iff_eq] at hQuote
    obtain rfl | rfl := hQuote <;> rfl
  · have hPlain : isPlain c = true := by
      rw [isPlain, Text.isSpace_of_skipSpace_eq_cons hStart, Bool.eq_false_iff.2 hQuote]
      rfl
    obtain ⟨_, hEq, hRest⟩ := hSkip.cons hPlain
    cases hEq
    rw [hRest.head?_any (by decide +kernel)]

end Lexeme

theorem ignoresSpacing_axis :
    IgnoresSpacing axis := by
  intro s t h found rest hAxis
  by_cases hAttribute : s.head? = some '@'
  · obtain ⟨inner, rfl⟩ := List.head?_eq_some_iff.1 hAttribute
    obtain ⟨inner', rfl, hInner⟩ := h.cons rfl
    cases hAxis
    exact ⟨inner', rfl, hInner⟩
  have hAttribute' : t.head? ≠ some '@' := fun hHead => hAttribute ((h.head?_eq_some_iff rfl).2 hHead)
  -- An axis that is named in one of the texts is named in the other.
  have hNamed : ∀ {s t : List Char}, Respaced s t → ∀ {word tail inner}, name s = .ok (word, tail) →
      skipSpace tail = ':' :: ':' :: inner → ∃ tail' inner', name t = .ok (word, tail') ∧
        skipSpace tail' = ':' :: ':' :: inner' ∧ Respaced inner inner' := by
    intro s t h word tail inner hName hColons
    obtain ⟨tail', hName', hTail⟩ := ignoresSpacing_name h _ _ hName
    obtain ⟨next, hFirst, hNext⟩ := hTail.starts hColons rfl
    obtain ⟨inner', rfl, hInner⟩ := hNext.cons rfl
    exact ⟨tail', inner', hName', hFirst, hInner⟩
  by_cases hColons : ∃ word tail inner, name s = .ok (word, tail) ∧ skipSpace tail = ':' :: ':' :: inner
  · obtain ⟨word, tail, inner, hName, hColons⟩ := hColons
    obtain ⟨tail', inner', hName', hColons', hInner⟩ := hNamed h hName hColons
    rw [axis_of_colons hName hColons] at hAxis
    rw [axis_of_colons hName' hColons']
    split at hAxis
    · cases hAxis
      exact ⟨inner', rfl, hInner⟩
    · cases hAxis
  · rw [axis_of_not hAttribute fun word tail inner hName hStart =>
      hColons ⟨word, tail, inner, hName, hStart⟩] at hAxis
    cases hAxis
    refine ⟨t, axis_of_not hAttribute' fun word tail inner hName hStart => hColons ?_, h⟩
    obtain ⟨tail', inner', hName', hColons', -⟩ := hNamed h.symm hName hStart
    exact ⟨word, tail', inner', hName', hColons'⟩

theorem ignoresSpacing_nodeTest :
    IgnoresSpacing nodeTest := by
  intro s t h
  by_cases hStar : (skipSpace s).head? = some '*'
  · obtain ⟨inner, hStart⟩ := List.head?_eq_some_iff.1 hStar
    obtain ⟨inner', hStart', hInner⟩ := h.starts hStart rfl
    rw [nodeTest, hStart, nodeTest, hStart']
    exact carriesOver_ok _ hInner
  cases hName : name (skipSpace s) with
  | error fault =>
      rw [nodeTest]
      split
      · rename_i hStart
        exact absurd (congrArg List.head? hStart) hStar
      · rw [hName]
        exact carriesOver_error fault _
  | ok read =>
      obtain ⟨word, tail⟩ := read
      obtain ⟨tail', hName', hTail⟩ := ignoresSpacing_name h.skipSpace _ _ hName
      rw [nodeTest_of_name hName, nodeTest_of_name hName', startsPrefixed_respaced hTail]
      split
      · exact carriesOver_error _ _
      by_cases hCall : (skipSpace tail).head? = some '('
      · obtain ⟨inner, hStart⟩ := List.head?_eq_some_iff.1 hCall
        obtain ⟨inner', hStart', hInner⟩ := hTail.starts hStart rfl
        rw [hStart, hStart']
        cases nodeType word with
        | error cause => exact carriesOver_error _ _
        | ok test =>
            exact carriesOver_expect_bind hInner rfl fun rest rest' _ hRest => carriesOver_ok _ hRest
      · have hCall' := hTail.head?_skipSpace_ne rfl hCall
        split
        · rename_i hStart
          exact absurd (congrArg List.head? hStart) hCall
        · split
          · rename_i hStart
            exact absurd (congrArg List.head? hStart) hCall'
          · exact carriesOver_ok _ hTail

end Parse

end CborPath
