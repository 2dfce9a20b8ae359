import CborPath.Text.Utf8

/-!
# Reading UTF-8

A character is read back from its own bytes, whatever follows them.  From fewer of its bytes no
character is read, and nothing of them is passed over as broken: what is left of a text that was cut
anywhere begins with the character that was cut, and that is less than four bytes.
-/

namespace CborPath

namespace Utf8

section Lead

variable {byte : Nat}

theorem lead?_one (h : byte < 0x80) :
    lead? byte = some ⟨byte, 0, 0, 0⟩ := by
  rw [lead?, if_pos h]

theorem lead?_two (hLow : 0xC2 ≤ byte) (hHigh : byte < 0xE0) :
    lead? byte = some ⟨byte - 0xC0, 0x80, 0xBF, 1⟩ := by
  rw [lead?, if_neg (by omega), if_neg (by omega), if_pos hHigh]

theorem lead?_three (hLow : 0xE0 ≤ byte) (hHigh : byte < 0xF0) :
    lead? byte = some ⟨byte - 0xE0, if byte = 0xE0 then 0xA0 else 0x80,
      if byte = 0xED then 0x9F else 0xBF, 2⟩ := by
  rw [lead?, if_neg (by omega), if_neg (by omega), if_neg (by omega)]
  split
  · rename_i hFirst
    rw [hFirst, if_neg (by omega)]
  · split
    · rename_i hSurrogate
      rw [hSurrogate]
    · rfl

theorem lead?_four (hLow : 0xF0 ≤ byte) (hHigh : byte ≤ 0xF4) :
    lead? byte = some ⟨byte - 0xF0, if byte = 0xF0 then 0x90 else 0x80,
      if byte = 0xF4 then 0x8F else 0xBF, 3⟩ := by
  rw [lead?, if_neg (by omega), if_neg (by omega), if_neg (by omega), if_neg (by omega),
    if_neg (by omega), if_neg (by omega)]
  split
  · rename_i hFirst
    rw [hFirst, if_neg (by omega)]
  · split
    · rw [if_neg (by omega)]
    · rw [show byte = 0xF4 by omega]
      rfl

end Lead

section Tails

variable {count low high value n : Nat} {tails : List UInt8}

/-- One byte after the first adds six bits. -/
theorem readTails_cons {digit : Nat} (hDigit : digit < 64) (hLow : low ≤ digit + 128)
    (hHigh : digit + 128 ≤ high) (bytes : List UInt8) :
    readTails (count + 1) low high value (UInt8.ofNat (digit + 128) :: bytes) =
      readTails count 0x80 0xBF (value * 64 + digit) bytes := by
  have hByte : (UInt8.ofNat (digit + 128)).toNat = digit + 128 := by
    rw [UInt8.toNat_ofNat']
    omega
  rw [readTails, hByte, if_pos (by simp [hLow, hHigh]), Nat.add_sub_cancel]

theorem length_of_readTails (h : readTails count low high value tails = (some n, [])) :
    tails.length = count := by
  induction count generalizing low high value tails with
  | zero =>
      rw [readTails] at h
      cases h
      rfl
  | succ count ih =>
      cases tails with
      | nil => cases h
      | cons byte tails =>
          rw [readTails] at h
          split at h
          · rw [List.length_cons, ih h]
          · cases h

/-- What follows the bytes of a character is left. -/
theorem readTails_append (h : readTails count low high value tails = (some n, []))
    (more : List UInt8) :
    readTails count low high value (tails ++ more) = (some n, more) := by
  induction count generalizing low high value tails with
  | zero =>
      rw [readTails] at h
      cases h
      rfl
  | succ count ih =>
      cases tails with
      | nil => cases h
      | cons byte tails =>
          rw [List.cons_append, readTails]
          rw [readTails] at h
          split at h
          · rename_i hFits
            rw [if_pos hFits, ih h]
          · cases h

/-- From fewer bytes no character is read. -/
theorem readTails_cut {start cut : List UInt8}
    (h : readTails count low high value (start ++ cut) = (some n, [])) (hCut : cut ≠ []) :
    (readTails count low high value start).1 = none := by
  induction count generalizing low high value start with
  | zero =>
      rw [readTails, Prod.mk.injEq, List.append_eq_nil_iff] at h
      exact absurd h.2.2 hCut
  | succ count ih =>
      cases start with
      | nil => rfl
      | cons byte start =>
          rw [List.cons_append, readTails] at h
          rw [readTails]
          split at h
          · rename_i hFits
            rw [if_pos hFits]
            exact ih h
          · cases h

end Tails

/-- The bytes of a character are a first byte and those that it announces. -/
theorem exists_lead (c : Char) :
    ∃ byte tails lead, String.utf8EncodeChar c = byte :: tails ∧ lead? byte.toNat = some lead ∧
      lead.tails ≤ 3 ∧
      readTails lead.tails lead.low lead.high lead.bits tails = (some c.toNat, []) := by
  have hValid : c.val.toNat < 0xD800 ∨ 0xDFFF < c.val.toNat ∧ c.val.toNat < 0x110000 := c.valid
  have hNat : c.toNat = c.val.toNat := rfl
  have hByte : ∀ n, n < 256 → (UInt8.ofNat n).toNat = n := by
    intro n hN
    rw [UInt8.toNat_ofNat']
    omega
  rw [String.utf8EncodeChar, hNat]
  generalize c.val.toNat = v at hValid
  have hTwice : v / 4096 = v / 64 / 64 := by
    rw [Nat.div_div_eq_div_mul]
  have hThrice : v / 262144 = v / 64 / 64 / 64 := by
    rw [Nat.div_div_eq_div_mul, Nat.div_div_eq_div_mul]
  by_cases hOne : v ≤ 0x7F
  · rw [if_pos hOne]
    refine ⟨UInt8.ofNat v, [], ⟨v, 0, 0, 0⟩, rfl, ?_, Nat.zero_le 3, rfl⟩
    rw [hByte v (by omega)]
    exact lead?_one (by omega)
  rw [if_neg hOne]
  by_cases hTwo : v ≤ 0x7FF
  · rw [if_pos hTwo]
    refine ⟨_, _, _, rfl, (congrArg lead? (hByte _ (by omega))).trans
      (lead?_two (by omega) (by omega)), (by decide : 1 ≤ 3), ?_⟩
    dsimp only
    rw [readTails_cons (by omega) (by omega) (by omega), readTails]
    refine congrArg (fun n => (some n, [])) ?_
    omega
  rw [if_neg hTwo, hTwice]
  by_cases hThree : v ≤ 0xFFFF
  · rw [if_pos hThree]
    refine ⟨_, _, _, rfl, (congrArg lead? (hByte _ (by omega))).trans
      (lead?_three (by omega) (by omega)), (by decide : 2 ≤ 3), ?_⟩
    dsimp only
    rw [readTails_cons (by omega) (by split <;> omega) (by split <;> omega),
      readTails_cons (by omega) (by omega) (by omega), readTails]
    refine congrArg (fun n => (some n, [])) ?_
    omega
  · rw [if_neg hThree, hThrice]
    refine ⟨_, _, _, rfl, (congrArg lead? (hByte _ (by omega))).trans
      (lead?_four (by omega) (by omega)), Nat.le_refl 3, ?_⟩
    dsimp only
    rw [readTails_cons (by omega) (by split <;> omega) (by split <;> omega),
      readTails_cons (by omega) (by omega) (by omega),
      readTails_cons (by omega) (by omega) (by omega), readTails]
    refine congrArg (fun n => (some n, [])) ?_
    omega

/-- A character is read from its own bytes, and what follows them is left. -/
theorem readChar_append {c : Char} {byte : UInt8} {tails : List UInt8}
    (h : String.utf8EncodeChar c = byte :: tails) (more : List UInt8) :
    readChar byte (tails ++ more) = (some c, more) := by
  obtain ⟨byte', tails', lead, hBytes, hLead, -, hTails⟩ := exists_lead c
  rw [h] at hBytes
  cases hBytes
  rw [readChar, hLead]
  dsimp only
  rw [readTails_append hTails]
  exact congrArg (fun c => (some c, more)) (Char.ofNat_toNat c)

/-- From fewer bytes no character is read, and these are less than four. -/
theorem readChar_cut {c : Char} {byte : UInt8} {start cut : List UInt8}
    (h : String.utf8EncodeChar c = byte :: (start ++ cut)) (hCut : cut ≠ []) :
    (readChar byte start).1 = none ∧ (byte :: start).length ≤ 3 := by
  obtain ⟨byte', tails', lead, hBytes, hLead, hCount, hTails⟩ := exists_lead c
  rw [h] at hBytes
  cases hBytes
  have hLength := length_of_readTails hTails
  have hPositive := List.length_pos_iff.2 hCut
  rw [List.length_append] at hLength
  constructor
  · rw [readChar, hLead]
    dsimp only
    rw [readTails_cut hTails hCut]
    rfl
  · rw [List.length_cons]
    omega

theorem encode_cons (c : Char) (cs : List Char) :
    encode (c :: cs) = String.utf8EncodeChar c ++ encode cs :=
  rfl

theorem eq_nil_of_encode_eq_nil {cs : List Char} (h : encode cs = []) :
    cs = [] := by
  cases cs with
  | nil => rfl
  | cons c cs =>
      rw [encode_cons] at h
      exact absurd (List.append_eq_nil_iff.1 h).1 String.utf8EncodeChar_ne_nil

/-- Where the bytes of a text are cut, the first character is cut or it is whole. -/
theorem cut_or_whole {tails bytes more others : List UInt8}
    (h : bytes ++ more = tails ++ others) :
    (∃ cut, cut ≠ [] ∧ tails = bytes ++ cut ∧ more = cut ++ others) ∨
      ∃ left, bytes = tails ++ left ∧ left ++ more = others := by
  rcases List.append_eq_append_iff.1 h with ⟨cut, hTails, hMore⟩ | ⟨left, hBytes, hOthers⟩
  · by_cases hCut : cut = []
    · rw [hCut, List.append_nil] at hTails
      rw [hCut, List.nil_append] at hMore
      exact .inr ⟨[], by rw [hTails, List.append_nil], hMore⟩
    · exact .inl ⟨cut, hCut, hTails, hMore⟩
  · exact .inr ⟨left, hBytes, hOthers.symm⟩

theorem splitValidWithin_of_append_eq_encode {bound : Nat} {bytes more : List UInt8}
    {cs : List Char} (h : bytes ++ more = encode cs) (hBound : bytes.length ≤ bound) :
    ∃ here there broken, splitValidWithin bound bytes = (here, broken) ∧ cs = here ++ there ∧
      broken ++ more = encode there ∧ broken.length ≤ 3 ∧ (more = [] → broken = []) := by
  induction bound generalizing bytes cs with
  | zero =>
      obtain rfl := List.length_eq_zero_iff.1 (Nat.le_zero.1 hBound)
      exact ⟨[], cs, [], rfl, rfl, h, Nat.zero_le 3, fun _ => rfl⟩
  | succ bound ih =>
      cases bytes with
      | nil => exact ⟨[], cs, [], rfl, rfl, h, Nat.zero_le 3, fun _ => rfl⟩
      | cons byte bytes =>
          cases cs with
          | nil => cases h
          | cons c cs =>
              obtain ⟨first, tails, hFirst⟩ :=
                List.exists_cons_of_ne_nil (String.utf8EncodeChar_ne_nil (c := c))
              have hText := h
              rw [encode_cons, hFirst, List.cons_append, List.cons_append] at h
              obtain ⟨rfl, hRest⟩ := List.cons.inj h
              rw [splitValidWithin]
              rcases cut_or_whole hRest with ⟨cut, hCut, rfl, rfl⟩ | ⟨left, rfl, hLeft⟩
              · obtain ⟨hNone, hLength⟩ := readChar_cut hFirst hCut
                generalize readChar byte bytes = read at hNone
                obtain ⟨piece, rest⟩ := read
                obtain rfl := hNone
                refine ⟨[], c :: cs, byte :: bytes, rfl, rfl, hText, hLength, fun hNil => ?_⟩
                exact absurd (List.append_eq_nil_iff.1 hNil).1 hCut
              · have hShorter : left.length ≤ bound := by
                  rw [List.length_cons, List.length_append] at hBound
                  omega
                obtain ⟨here, there, broken, hSplit, rfl, hBroken⟩ := ih hLeft hShorter
                rw [readChar_append hFirst]
                dsimp only
                rw [hSplit]
                exact ⟨c :: here, there, broken, rfl, rfl, hBroken⟩

/-- A text that was cut anywhere is read up to the character that was cut, if any. -/
theorem splitValid_of_append_eq_encode {bytes more : List UInt8} {cs : List Char}
    (h : bytes ++ more = encode cs) :
    ∃ here there broken, splitValid bytes = (here, broken) ∧ cs = here ++ there ∧
      broken ++ more = encode there ∧ broken.length ≤ 3 ∧ (more = [] → broken = []) :=
  splitValidWithin_of_append_eq_encode h (Nat.le_refl _)

/-- A text is read back from its bytes. -/
theorem decode?_encode (cs : List Char) :
    decode? (encode cs) = some cs := by
  obtain ⟨here, there, broken, hSplit, rfl, hBroken, -, hEnd⟩ :=
    splitValid_of_append_eq_encode (List.append_nil (encode cs))
  obtain rfl := hEnd rfl
  rw [decode?, hSplit, eq_nil_of_encode_eq_nil hBroken.symm, List.append_nil]

end Utf8

end CborPath
