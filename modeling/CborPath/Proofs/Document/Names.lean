import CborPath.Document.Value
import CborPath.Proofs.Number.Shortest
import CborPath.Proofs.Query.Lexeme

/-!
# Names of numbers

The element name of a number is the letter n with the text of the number, and that is always a name of
the query language: digits, a minus sign, a point, and the letters of the special values are what can
continue a name.  Different integers have different texts, and so different names.
-/

namespace CborPath

open Parse (isName isNameChar)

/-- Digits can continue a name. -/
theorem all_isNameChar_of_all_isDigit {digits : List Char} (h : digits.all Char.isDigit = true) :
    digits.all isNameChar = true :=
  List.all_eq_true.2 fun _ hMem => Parse.isNameChar_of_isDigit (List.all_eq_true.1 h _ hMem)

theorem all_isNameChar_sign (negative : Prop) [Decidable negative] :
    (if negative then ['-'] else []).all isNameChar = true := by
  split <;> rfl

theorem all_isNameChar_integerText (n : Int) :
    (integerText n).toList.all isNameChar = true := by
  rw [integerText, String.toList_ofList, List.all_append, all_isNameChar_sign,
    all_isNameChar_of_all_isDigit (all_isDigit_toDigits _)]
  rfl

theorem Decimal.all_isNameChar_text (d : Decimal) :
    d.text.all isNameChar = true := by
  obtain ⟨whole, fraction, hText, -, hDigits, -⟩ := d.exists_text_eq
  rw [List.all_append, Bool.and_eq_true] at hDigits
  have hWhole := all_isNameChar_of_all_isDigit hDigits.1
  have hFraction := all_isNameChar_of_all_isDigit hDigits.2
  rw [hText, pointed]
  split
  · exact hWhole
  · rw [List.all_append, List.all_cons, hWhole, hFraction]
    rfl

theorem Binary64.all_isNameChar_text (x : Binary64) :
    x.text.toList.all isNameChar = true := by
  cases x with
  | nan => decide
  | infinite negative => cases negative <;> decide
  | finite negative position =>
      have hMagnitude : (magnitudeText position).all isNameChar = true := by
        rw [magnitudeText]
        split
        · rfl
        · exact Decimal.all_isNameChar_text _
      rw [text, String.toList_ofList, List.all_append, all_isNameChar_sign, hMagnitude]
      rfl

/-- What can continue a name makes a name behind a letter. -/
theorem isName_n_append {s : String} (h : s.toList.all isNameChar = true) :
    isName ("n" ++ s).toList = true := by
  rw [String.toList_append]
  exact Bool.and_eq_true_iff.2 ⟨rfl, h⟩

/-- An integer is told by its text. -/
theorem integerText_injective {m n : Int} (h : integerText m = integerText n) :
    m = n := by
  have hText := congrArg String.toList h
  rw [integerText, integerText, String.toList_ofList, String.toList_ofList] at hText
  -- No digits begin with a minus sign.
  have hSign : ∀ (k : Nat) (rest : List Char), Nat.toDigits 10 k ≠ '-' :: rest := by
    intro k rest hDigits
    have hAll := all_isDigit_toDigits k
    rw [hDigits] at hAll
    cases hAll
  have hDigits : ∀ {j k : Nat}, Nat.toDigits 10 j = Nat.toDigits 10 k → j = k := by
    intro j k hEq
    have hValue := congrArg naturalOfDigits hEq
    rwa [naturalOfDigits_toDigits, naturalOfDigits_toDigits] at hValue
  split at hText <;> split at hText
  · have := hDigits (List.cons.inj hText).2
    omega
  · exact absurd hText.symm (hSign _ _)
  · exact absurd hText (hSign _ _)
  · have := hDigits hText
    omega

/-- The key of a number. -/
def Value.IsNumber (key : Value) : Prop :=
  (∃ n, key = .scalar (.integer n)) ∨ ∃ x, key = .scalar (.float x)

/-- The name of a number is a name of the query language. -/
theorem Value.IsNumber.exists_elementName {key : Value} (h : key.IsNumber) :
    ∃ name, key.elementName = .ok name ∧ isName name.toList = true := by
  obtain ⟨n, rfl⟩ | ⟨x, rfl⟩ := h
  · exact ⟨_, rfl, isName_n_append (all_isNameChar_integerText n)⟩
  · exact ⟨_, rfl, isName_n_append x.all_isNameChar_text⟩

/-- An integer is told by its name. -/
theorem elementName_integer_injective {m n : Int}
    (h : (Value.scalar (.integer m)).elementName = (Value.scalar (.integer n)).elementName) :
    m = n := by
  have hName : "n" ++ integerText m = "n" ++ integerText n := Except.ok.inj h
  have hList := congrArg String.toList hName
  rw [String.toList_append, String.toList_append] at hList
  exact integerText_injective (String.toList_inj.1 (List.append_cancel_left hList))

end CborPath
