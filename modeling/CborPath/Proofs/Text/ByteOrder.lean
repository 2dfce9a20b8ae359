import CborPath.Text.Utf8

/-!
# The order of texts

Texts are ordered by their code points.  The bytes that stand for a code point in UTF-8 differ from
those of a greater one first at a place where they are less, so that the order of texts is also that
of their bytes.
-/

namespace CborPath

namespace Utf8

theorem ofNat_cons_lt_iff {m n : Nat} {xs ys : List UInt8} :
    UInt8.ofNat m :: xs < UInt8.ofNat n :: ys ↔
      m % 256 < n % 256 ∨ m % 256 = n % 256 ∧ xs < ys := by
  rw [List.cons_lt_cons_iff, UInt8.lt_iff_toNat_lt, ← UInt8.toNat_inj]
  simp only [UInt8.toNat_ofNat', Nat.reducePow]

/-- The bytes of a character are less than those of a greater one, whatever follows them. -/
theorem utf8EncodeChar_append_lt {c d : Char} (h : c < d) (xs ys : List UInt8) :
    String.utf8EncodeChar c ++ xs < String.utf8EncodeChar d ++ ys := by
  have hLt : c.val.toNat < d.val.toNat := h
  have hBound : d.val.toNat < 0x110000 := by
    rcases d.valid with hLow | ⟨-, hHigh⟩
    · exact Nat.lt_trans hLow (by decide)
    · exact hHigh
  unfold String.utf8EncodeChar
  generalize c.val.toNat = m at hLt
  generalize d.val.toNat = n at hLt hBound
  dsimp only
  have hTwice : ∀ k, k / 4096 = k / 64 / 64 := by
    intro k
    rw [Nat.div_div_eq_div_mul]
  have hThrice : ∀ k, k / 262144 = k / 64 / 64 / 64 := by
    intro k
    rw [Nat.div_div_eq_div_mul, Nat.div_div_eq_div_mul]
  -- A longer form has a greater first byte; of two forms of one length the digits decide.
  repeat' split
  all_goals
    simp only [List.cons_append, List.nil_append, ofNat_cons_lt_iff, hTwice, hThrice]
    omega

theorem encode_lt_encode {s t : List Char} (h : s < t) :
    encode s < encode t := by
  induction h with
  | @nil c t =>
      rw [encode, encode, List.flatMap_nil, List.flatMap_cons]
      have hBytes : String.utf8EncodeChar c ≠ [] := String.utf8EncodeChar_ne_nil
      obtain ⟨byte, bytes, hCons⟩ := List.exists_cons_of_ne_nil hBytes
      rw [hCons]
      exact List.nil_lt_cons _ _
  | rel hLt =>
      rw [encode, encode, List.flatMap_cons, List.flatMap_cons]
      exact utf8EncodeChar_append_lt hLt _ _
  | cons _ ih =>
      rw [encode, encode, List.flatMap_cons, List.flatMap_cons]
      exact List.append_left_lt ih

/-- The order of texts is that of their bytes. -/
theorem encode_lt_encode_iff {s t : String} :
    encode s.toList < encode t.toList ↔ s < t := by
  constructor
  · intro h
    refine String.not_le.1 fun hLe => ?_
    by_cases hLt : t < s
    · exact List.lt_asymm h (encode_lt_encode hLt)
    · rw [String.le_antisymm hLe (String.not_lt.1 hLt)] at h
      exact List.lt_irrefl _ h
  · exact encode_lt_encode

end Utf8

end CborPath
