import CborPath.Document.Atomic
import Mathlib.Tactic.Tauto

/-!
# Numerals

The texts that denote numbers, told by their form: white space, perhaps a minus sign, digits with a point
before, among or after them if there is one, and white space again.  Reading a text as a number accepts
exactly these, and makes of them the decimal that their digits spell.
-/

namespace CborPath

open Text (isSpace skipSpace trim)

/-- Whether a text is a decimal with the given digits before and after its point.  Without a point there
are digits before it only, and with one there are digits on one side at least. -/
inductive SpellsDecimal : List Char → List Char → List Char → Prop
  | digits {whole : List Char} (hSome : whole ≠ []) (hWhole : whole.all Char.isDigit = true) :
      SpellsDecimal whole whole []
  | point {whole fraction : List Char} (hSome : whole ≠ [] ∨ fraction ≠ [])
      (hWhole : whole.all Char.isDigit = true) (hFraction : fraction.all Char.isDigit = true) :
      SpellsDecimal (whole ++ '.' :: fraction) whole fraction

/-- Whether a text is a decimal, perhaps after a minus sign, with nothing but white space around it. -/
def IsNumeral (text : List Char) (negative : Bool) (whole fraction : List Char) : Prop :=
  ∃ before decimal after, text = before ++ ((if negative then ['-'] else []) ++ decimal) ++ after ∧
    before.all isSpace = true ∧ after.all isSpace = true ∧ SpellsDecimal decimal whole fraction

namespace Text

section Trimming

variable {before core after : List Char}

theorem skipSpace_append_of_all (h : before.all isSpace = true) (s : List Char) :
    skipSpace (before ++ s) = skipSpace s :=
  List.dropWhile_append_of_pos (List.all_eq_true.1 h)

theorem skipSpace_of_all (h : after.all isSpace = true) :
    skipSpace after = [] := by
  have hSkip := skipSpace_append_of_all h []
  rwa [List.append_nil, skipSpace_nil] at hSkip

/-- Where white space stands around a text without any, trimming leaves that text. -/
theorem trim_append (hBefore : before.all isSpace = true) (hAfter : after.all isSpace = true)
    (hCore : ∀ c ∈ core, isSpace c = false) :
    trim (before ++ core ++ after) = core := by
  have hTurned : after.reverse.all isSpace = true := by
    rw [List.all_reverse, hAfter]
  rw [trim, List.append_assoc, skipSpace_append_of_all hBefore]
  cases core with
  | nil =>
      rw [List.nil_append, skipSpace_of_all hAfter]
      rfl
  | cons c rest =>
      have hLast : skipSpace (c :: rest).reverse = (c :: rest).reverse := by
        cases hReverse : (c :: rest).reverse with
        | nil => rfl
        | cons d others =>
            have hMem : d ∈ c :: rest := List.mem_reverse.1 (hReverse ▸ List.mem_cons_self ..)
            exact skipSpace_cons_of_not_isSpace (hCore d hMem) others
      rw [List.cons_append, skipSpace_cons_of_not_isSpace (hCore c (List.mem_cons_self ..)),
        ← List.cons_append, List.reverse_append, skipSpace_append_of_all hTurned, hLast,
        List.reverse_reverse]

/-- Trimming takes off nothing but white space. -/
theorem exists_eq_append_trim (text : List Char) :
    ∃ before after, text = before ++ trim text ++ after ∧ before.all isSpace = true ∧
      after.all isSpace = true := by
  have hTurned := congrArg List.reverse (takeWhile_append_skipSpace (skipSpace text).reverse)
  rw [List.reverse_append, List.reverse_reverse, ← trim] at hTurned
  refine ⟨text.takeWhile isSpace, ((skipSpace text).reverse.takeWhile isSpace).reverse, ?_,
    List.all_takeWhile, ?_⟩
  · rw [List.append_assoc, hTurned, takeWhile_append_skipSpace]
  · rw [List.all_reverse, List.all_takeWhile]

end Trimming

end Text

section Decimal

variable {text whole fraction : List Char}

theorem not_mem_of_all_isDigit {digits : List Char} (h : digits.all Char.isDigit = true) :
    '.' ∉ digits :=
  fun hMem => Bool.false_ne_true (List.all_eq_true.1 h _ hMem)

/-- A decimal consists of digits and at most one point. -/
theorem SpellsDecimal.isDecimalText (h : SpellsDecimal text whole fraction) :
    isDecimalText text = true := by
  cases h with
  | digits hSome hWhole =>
      have hAll := List.all_eq_true.1 hWhole
      obtain ⟨c, hMem⟩ := List.exists_mem_of_ne_nil text hSome
      simp only [CborPath.isDecimalText, Bool.and_eq_true, decide_eq_true_eq, List.all_eq_true,
        List.any_eq_true, Bool.or_eq_true]
      refine ⟨⟨fun d hIn => .inl (hAll d hIn), ?_⟩, c, hMem, hAll c hMem⟩
      rw [List.count_eq_zero.2 (not_mem_of_all_isDigit hWhole)]
      exact Nat.zero_le 1
  | point hSome hWhole hFraction =>
      have hEach : ∀ d ∈ whole ++ fraction, d.isDigit = true := by
        rw [← List.all_eq_true, List.all_append, hWhole, hFraction]
        rfl
      obtain ⟨c, hMem⟩ := List.exists_mem_of_ne_nil (whole ++ fraction) (by
        rw [Ne, List.append_eq_nil_iff]
        tauto)
      have hAmong : ∀ d, d ∈ whole ++ '.' :: fraction ↔ d = '.' ∨ d ∈ whole ++ fraction := by
        intro d
        simp only [List.mem_append, List.mem_cons]
        tauto
      simp only [CborPath.isDecimalText, Bool.and_eq_true, decide_eq_true_eq, List.all_eq_true,
        List.any_eq_true, Bool.or_eq_true, beq_iff_eq, hAmong]
      have hCount : List.count '.' (whole ++ '.' :: fraction) = 1 := by
        rw [List.count_append, List.count_cons_self,
          List.count_eq_zero.2 (not_mem_of_all_isDigit hWhole),
          List.count_eq_zero.2 (not_mem_of_all_isDigit hFraction)]
      exact ⟨⟨fun d hIn => hIn.elim .inr fun hDigit => .inl (hEach d hDigit), Nat.le_of_eq hCount⟩,
        c, .inr hMem, hEach c hMem⟩

/-- What consists of digits and at most one point is a decimal. -/
theorem exists_spellsDecimal (h : isDecimalText text = true) :
    ∃ whole fraction, SpellsDecimal text whole fraction := by
  simp only [isDecimalText, Bool.and_eq_true, decide_eq_true_eq, List.all_eq_true, List.any_eq_true,
    Bool.or_eq_true, beq_iff_eq] at h
  obtain ⟨⟨hEach, hCount⟩, c, hMem, hDigit⟩ := h
  have hDigits : ∀ part : List Char, part ⊆ text → '.' ∉ part → part.all Char.isDigit = true :=
    fun part hPart hAbsent => List.all_eq_true.2 fun c hMem =>
      (hEach c (hPart hMem)).resolve_right fun hEq => hAbsent (hEq ▸ hMem)
  by_cases hPoint : '.' ∈ text
  · obtain ⟨whole, fraction, rfl, hWhole⟩ := List.eq_append_cons_of_mem hPoint
    rw [List.count_append, List.count_cons_self, List.count_eq_zero.2 hWhole] at hCount
    have hFraction : '.' ∉ fraction := List.count_eq_zero.1 (by omega)
    refine ⟨whole, fraction, .point ?_ (hDigits _ (List.subset_append_left ..) hWhole)
      (hDigits _ (fun d hIn => List.mem_append_right _ (List.mem_cons_of_mem _ hIn)) hFraction)⟩
    refine Decidable.or_iff_not_imp_left.2 fun hNone => ?_
    rintro rfl
    rw [Decidable.not_not.1 hNone, List.nil_append, List.mem_singleton] at hMem
    subst hMem
    cases hDigit
  · exact ⟨text, [], .digits (List.ne_nil_of_mem hMem) (hDigits text (List.Subset.refl _) hPoint)⟩

/-- The digits on the two sides of the point are what the number is made of. -/
theorem SpellsDecimal.ofDecimalText_eq (h : SpellsDecimal text whole fraction) (negative : Bool) :
    Binary64.ofDecimalText negative text = .ofDecimal negative whole fraction := by
  have hBefore : ∀ digits : List Char, digits.all Char.isDigit = true →
      ∀ c ∈ digits, (c != '.') = true := fun digits hDigits c hMem =>
    bne_iff_ne.2 fun hEq => not_mem_of_all_isDigit hDigits (hEq ▸ hMem)
  rw [Binary64.ofDecimalText]
  cases h with
  | digits hSome hWhole =>
      have hAll := hBefore text hWhole
      have hTake : (text ++ []).takeWhile (· != '.') = text ++ [] := List.takeWhile_append_of_pos hAll
      have hDrop : (text ++ []).dropWhile (· != '.') = [] := List.dropWhile_append_of_pos hAll
      rw [List.append_nil] at hTake hDrop
      rw [hTake, hDrop]
      rfl
  | point hSome hWhole hFraction =>
      have hAll := hBefore whole hWhole
      rw [List.takeWhile_append_of_pos hAll, List.dropWhile_append_of_pos hAll]
      simp

/-- A decimal has no white space and no minus sign in it. -/
theorem SpellsDecimal.forall_mem (h : SpellsDecimal text whole fraction) {c : Char} (hMem : c ∈ text) :
    c.isDigit = true ∨ c = '.' := by
  have hDecimal := h.isDecimalText
  simp only [CborPath.isDecimalText, Bool.and_eq_true, List.all_eq_true, Bool.or_eq_true,
    beq_iff_eq] at hDecimal
  exact hDecimal.1.1 c hMem

theorem SpellsDecimal.isSpace_eq_false (h : SpellsDecimal text whole fraction) {c : Char}
    (hMem : c ∈ text) :
    isSpace c = false := by
  rcases h.forall_mem hMem with hDigit | rfl
  · have hCode : 48 ≤ c.toNat ∧ c.toNat ≤ 57 := by
      simpa [Char.isDigit, UInt32.le_iff_toNat_le] using hDigit
    simp [isSpace]
    omega
  · rfl

theorem SpellsDecimal.ne_minus (h : SpellsDecimal text whole fraction) {c : Char} (hMem : c ∈ text) :
    c ≠ '-' := by
  rintro rfl
  rcases h.forall_mem hMem with hDigit | hPoint
  · cases hDigit
  · cases hPoint

end Decimal

namespace Binary64

@[simp] theorem neg_neg (n : Binary64) : n.neg.neg = n := by
  cases n <;> simp [neg]

/-- Without its sign, a decimal is the opposite number. -/
theorem neg_ofDecimal (negative : Bool) (whole fraction : List Char) :
    (ofDecimal negative whole fraction).neg = ofDecimal (!negative) whole fraction := by
  rw [ofDecimal, ofDecimal, ofFraction, ofFraction, ofUnits, ofUnits]
  split <;> rfl

section Reading

variable {text : String} {negative : Bool} {whole fraction : List Char}

/-- A numeral is read as the decimal that it spells. -/
theorem ofText_of_isNumeral (h : IsNumeral text.toList negative whole fraction) :
    ofText text = ofDecimal negative whole fraction := by
  obtain ⟨before, decimal, after, hText, hBefore, hAfter, hDecimal⟩ := h
  have hCore : ∀ c ∈ (if negative then ['-'] else []) ++ decimal, isSpace c = false := by
    intro c hMem
    rcases List.mem_append.1 hMem with hSign | hDigit
    · cases negative with
      | true => rw [List.mem_singleton.1 hSign]; rfl
      | false => cases hSign
    · exact hDecimal.isSpace_eq_false hDigit
  rw [ofText, hText, Text.trim_append hBefore hAfter hCore]
  cases negative with
  | true =>
      show (if isDecimalText decimal = true then ofDecimalText true decimal else nan) = _
      rw [if_pos hDecimal.isDecimalText, hDecimal.ofDecimalText_eq]
  | false =>
      rw [if_neg Bool.false_ne_true, List.nil_append]
      split
      · exact absurd rfl (hDecimal.ne_minus (List.mem_cons_self ..))
      · rw [if_pos hDecimal.isDecimalText, hDecimal.ofDecimalText_eq]

/-- What is read as a number is a numeral. -/
theorem exists_isNumeral (h : (ofText text).isNaN = false) :
    ∃ negative whole fraction, IsNumeral text.toList negative whole fraction := by
  obtain ⟨before, after, hText, hBefore, hAfter⟩ := Text.exists_eq_append_trim text.toList
  rw [ofText] at h
  split at h
  · rename_i digits hTrim
    split at h
    · rename_i hDecimal
      obtain ⟨whole, fraction, hSpells⟩ := exists_spellsDecimal hDecimal
      rw [hTrim] at hText
      exact ⟨true, whole, fraction, before, digits, after, hText, hBefore, hAfter, hSpells⟩
    · cases h
  · rename_i digits hTrim
    split at h
    · rename_i hDecimal
      obtain ⟨whole, fraction, hSpells⟩ := exists_spellsDecimal hDecimal
      exact ⟨false, whole, fraction, before, _, after, hText, hBefore, hAfter, hSpells⟩
    · cases h

/-- Rounding a fraction always gives a number. -/
theorem isNaN_ofFraction (negative : Bool) (numerator denominator : Nat) :
    (ofFraction negative numerator denominator).isNaN = false := by
  rw [ofFraction, ofUnits]
  split <;> rfl

theorem isNaN_ofDecimal (negative : Bool) (whole fraction : List Char) :
    (ofDecimal negative whole fraction).isNaN = false :=
  isNaN_ofFraction ..

end Reading

end Binary64

end CborPath
