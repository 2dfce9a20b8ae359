import CborPath.Error
import CborPath.Proofs.Cbor.Endings
import CborPath.Proofs.Cbor.Taking
import CborPath.Proofs.Outcome

/-!
# Decoding what was encoded

Decoding undoes encoding, whichever of its encodings a document is given in.  The decoder goes down
the nesting one level at a time, and so does the proof: what every head means is read back if what is
nested in it is, and lists of items and entries are read back one after the other, whether they are
counted or go on to a break.
-/

namespace CborPath

/-- Whether a continuation reads back all values nested at most `levels` deep from encodings of fewer
than `bound` bytes, and refuses a break. -/
structure Continuation.ReadsBack (continuation : Continuation) (bound levels : Nat) : Prop where
  takes : ∀ {value bytes}, Encodes levels value bytes → bytes.length < bound →
    Takes (itemOf continuation) bytes value
  stop : ∀ input, continuation .stop input = .error .unexpectedBreak

section Items

variable {continuation : Continuation} {head : Head} {value : Value} {headBytes bytes : List UInt8}

theorem takes_itemOf (hHead : Takes takeHead headBytes head)
    (hContent : Takes (continuation head) bytes value) :
    Takes (itemOf continuation) (headBytes ++ bytes) value := by
  intro input more hInput
  rw [List.append_assoc] at hInput
  rw [itemOf]
  exact (hHead input _ hInput).bind fun rest hRest => hContent rest more hRest

/-- An item that is nothing but a head. -/
theorem takes_itemOf_head (hHead : Takes takeHead headBytes head)
    (hValue : ∀ input, continuation head input = .ok (value, input)) :
    Takes (itemOf continuation) headBytes value := by
  rw [← List.append_nil headBytes]
  refine takes_itemOf hHead fun input more hInput => ?_
  rw [hValue]
  exact hInput.leaves value

theorem Takes.length_pos (h : Takes (itemOf continuation) bytes value) :
    0 < bytes.length := by
  refine List.length_pos_iff.2 fun hNil => ?_
  subst hNil
  obtain ⟨rest, hOk, -⟩ := h (.ofBytes []) [] ⟨rfl, rfl⟩
  cases hOk

end Items

namespace Continuation.ReadsBack

variable {continuation : Continuation} {bound levels : Nat} {bytes : List UInt8}
  (h : continuation.ReadsBack bound levels)
include h

/-- An item that is read back begins with a head that is not a break. -/
theorem exists_head {value : Value} {input : Input} {left : List UInt8}
    (hItem : Encodes levels value bytes) (hBound : bytes.length < bound)
    (hInput : input.Holds (bytes ++ left)) :
    ∃ head rest, takeHead input = .ok (head, rest) ∧ head ≠ .stop ∧
      Leaves (continuation head rest) value left := by
  obtain ⟨last, hOk, hLast⟩ := h.takes hItem hBound input left hInput
  rw [itemOf] at hOk
  obtain ⟨⟨head, rest⟩, hHead, hOk⟩ := bind_eq_ok_iff.1 hOk
  replace hOk : continuation head rest = .ok (value, last) := hOk
  refine ⟨head, rest, hHead, ?_, last, hOk, hLast⟩
  rintro rfl
  rw [h.stop] at hOk
  cases hOk

theorem takes_items {values : List Value} (hItems : EncodesItems levels values bytes)
    (hBound : bytes.length < bound) :
    Takes (items (itemOf continuation) values.length) bytes values := by
  induction values generalizing bytes with
  | nil =>
      cases hItems
      exact fun input more hInput => hInput.leaves []
  | cons value values ih =>
      cases hItems with
      | cons hFirst hOthers =>
          rw [List.length_append] at hBound
          intro input more hInput
          rw [List.append_assoc] at hInput
          rw [List.length_cons, items]
          refine (h.takes hFirst (by omega) input _ hInput).bind fun rest hRest => ?_
          refine (ih hOthers (by omega) rest more hRest).bind fun rest hRest => ?_
          exact hRest.leaves _

theorem takesToStop_itemsToStop {values : List Value} (hItems : EncodesItems levels values bytes)
    (hBound : bytes.length < bound) :
    TakesToStop (itemsToStop continuation) bytes values := by
  induction values generalizing bytes with
  | nil =>
      cases hItems
      refine .start fun rounds input more hInput => ?_
      rw [itemsToStop]
      refine (takes_stopByte input more hInput).bind fun rest hRest => ?_
      exact hRest.leaves []
  | cons value values ih =>
      cases hItems with
      | cons hFirst hOthers =>
          rw [List.length_append] at hBound
          refine .round (h.takes hFirst (by omega)).length_pos (ih hOthers (by omega))
            fun rounds hLater input more hInput => ?_
          rw [List.append_assoc] at hInput
          obtain ⟨head, rest, hHead, hStop, hValue⟩ := h.exists_head hFirst (by omega) hInput
          rw [itemsToStop, hHead]
          show Leaves (if head = .stop then _ else _) _ _
          rw [if_neg hStop]
          refine hValue.bind fun rest hRest => ?_
          refine (hLater rest more hRest).bind fun rest hRest => ?_
          exact hRest.leaves _

theorem takes_entries {pairs : List (Value × Value)} (hEntries : EncodesEntries levels pairs bytes)
    (hBound : bytes.length < bound) :
    Takes (entries (itemOf continuation) pairs.length) bytes pairs := by
  induction pairs generalizing bytes with
  | nil =>
      cases hEntries
      exact fun input more hInput => hInput.leaves []
  | cons pair pairs ih =>
      cases hEntries with
      | cons hKey hValue hOthers =>
          rw [List.length_append, List.length_append] at hBound
          intro input more hInput
          rw [List.append_assoc, List.append_assoc] at hInput
          rw [List.length_cons, entries]
          refine (h.takes hKey (by omega) input _ hInput).bind fun rest hRest => ?_
          refine (h.takes hValue (by omega) rest _ hRest).bind fun rest hRest => ?_
          refine (ih hOthers (by omega) rest more hRest).bind fun rest hRest => ?_
          exact hRest.leaves _

theorem takesToStop_entriesToStop {pairs : List (Value × Value)}
    (hEntries : EncodesEntries levels pairs bytes) (hBound : bytes.length < bound) :
    TakesToStop (entriesToStop continuation) bytes pairs := by
  induction pairs generalizing bytes with
  | nil =>
      cases hEntries
      refine .start fun rounds input more hInput => ?_
      rw [entriesToStop]
      refine (takes_stopByte input more hInput).bind fun rest hRest => ?_
      exact hRest.leaves []
  | cons pair pairs ih =>
      cases hEntries with
      | @cons _ _ _ _ keyBytes valueBytes _ hKey hValue hOthers =>
          rw [List.length_append, List.length_append] at hBound
          have hFirst : 0 < (keyBytes ++ valueBytes).length := by
            rw [List.length_append]
            exact Nat.add_pos_left (h.takes hKey (by omega)).length_pos _
          refine .round hFirst (ih hOthers (by omega)) fun rounds hLater input more hInput => ?_
          rw [List.append_assoc, List.append_assoc] at hInput
          obtain ⟨head, rest, hHead, hStop, hFound⟩ := h.exists_head hKey (by omega) hInput
          rw [entriesToStop, hHead]
          show Leaves (if head = .stop then _ else _) _ _
          rw [if_neg hStop]
          refine hFound.bind fun rest hRest => ?_
          refine (h.takes hValue (by omega) rest _ hRest).bind fun rest hRest => ?_
          refine (hLater rest more hRest).bind fun rest hRest => ?_
          exact hRest.leaves _

end Continuation.ReadsBack

section Content

variable {bound levels tag : Nat} {nested : Option Continuation} {length : Option Nat}
  {bytes : List UInt8}

theorem takes_content_bytes {written : List UInt8}
    (h : Takes (takeByteString bound length) bytes written) :
    Takes (content bound nested (.bytes length)) bytes (.scalar (.bytes written)) :=
  fun input more hInput => (h input more hInput).bind fun _ hRest => hRest.leaves _

theorem takes_content_text {written : List Char}
    (h : Takes (takeTextString bound length) bytes written) :
    Takes (content bound nested (.text length)) bytes
      (.scalar (.text (String.ofList written))) :=
  fun input more hInput => (h input more hInput).bind fun _ hRest => hRest.leaves _

theorem bigIntegerLength?_eq_none (hTag : tag ≠ 2 ∧ tag ≠ 3) (head : Head) :
    head.bigIntegerLength? tag = none := by
  cases head with
  | bytes length => cases length <;> simp [Head.bigIntegerLength?, hTag]
  | _ => rfl

/-- A tag that makes no big integer is dropped. -/
theorem content_tag (hTag : tag ≠ 2 ∧ tag ≠ 3) (continuation : Continuation) (input : Input) :
    content bound (some continuation) (.tag tag) input = itemOf continuation input := by
  refine congrArg (takeHead input >>= ·) (funext fun taken => ?_)
  dsimp only
  rw [bigIntegerLength?_eq_none hTag]
  rfl

/-- What every head means is read back, if what is nested in it is. -/
theorem readsBack_content
    (hNested : ∀ less, levels = less + 1 →
      ∃ continuation, nested = some continuation ∧ continuation.ReadsBack bound less) :
    Continuation.ReadsBack (content bound nested) bound levels := by
  refine ⟨fun {value bytes} hItem hBound => ?_, fun _ => rfl⟩
  cases hItem with
  | null => exact takes_itemOf_head (takes_simple (n := 22) (by omega)) fun _ => rfl
  | undefined => exact takes_itemOf_head (takes_simple (n := 23) (by omega)) fun _ => rfl
  | no => exact takes_itemOf_head (takes_simple (n := 20) (by omega)) fun _ => rfl
  | yes => exact takes_itemOf_head (takes_simple (n := 21) (by omega)) fun _ => rfl
  | unsigned here =>
      exact takes_itemOf_head (here.takes_number (by omega) fun _ => rfl) fun _ => rfl
  | negative here =>
      exact takes_itemOf_head (here.takes_number (by omega) fun _ => rfl) fun _ => rfl
  | float here => exact takes_itemOf_head (takes_float here) fun _ => rfl
  | bytes here =>
      exact takes_itemOf (here.takes_length (by omega) fun _ => rfl)
        (takes_content_bytes (takes_takeBytes rfl))
  | @chunkedBytes _ written bytes chunks =>
      rw [List.length_cons, List.length_append] at hBound
      have hChunks : Takes (takeByteString bound none) (bytes ++ [stopByte]) written :=
        chunks.takes bound (by omega)
      exact takes_itemOf (takes_openHead (by omega) rfl) (takes_content_bytes hChunks)
  | @text _ written _ here =>
      refine takes_itemOf (here.takes_length (by omega) fun _ => rfl) (takes_content_text ?_)
      exact fun input => takes_takeText _ written input
  | @chunkedText _ written bytes chunks =>
      rw [List.length_cons, List.length_append] at hBound
      have hChunks : Takes (takeTextString bound none) (bytes ++ [stopByte]) written :=
        chunks.takes bound (by omega)
      exact takes_itemOf (takes_openHead (by omega) rfl) (takes_content_text hChunks)
  | sequence here within =>
      obtain ⟨continuation, rfl, hBack⟩ := hNested _ rfl
      rw [List.length_append] at hBound
      refine takes_itemOf (here.takes_length (by omega) fun _ => rfl) fun input more hInput => ?_
      exact (hBack.takes_items within (by omega) input more hInput).bind
        fun _ hRest => hRest.leaves _
  | openSequence within =>
      obtain ⟨continuation, rfl, hBack⟩ := hNested _ rfl
      rw [List.length_cons, List.length_append] at hBound
      refine takes_itemOf (takes_openHead (by omega) rfl) fun input more hInput => ?_
      exact (hBack.takesToStop_itemsToStop within (by omega) bound (by omega) input more hInput).bind
        fun _ hRest => hRest.leaves _
  | mapping here within =>
      obtain ⟨continuation, rfl, hBack⟩ := hNested _ rfl
      rw [List.length_append] at hBound
      refine takes_itemOf (here.takes_length (by omega) fun _ => rfl) fun input more hInput => ?_
      exact (hBack.takes_entries within (by omega) input more hInput).bind
        fun _ hRest => hRest.leaves _
  | openMapping within =>
      obtain ⟨continuation, rfl, hBack⟩ := hNested _ rfl
      rw [List.length_cons, List.length_append] at hBound
      refine takes_itemOf (takes_openHead (by omega) rfl) fun input more hInput => ?_
      exact (hBack.takesToStop_entriesToStop within (by omega) bound (by omega) input more
        hInput).bind fun _ hRest => hRest.leaves _
  | tagged here plain within =>
      obtain ⟨continuation, rfl, hBack⟩ := hNested _ rfl
      rw [List.length_append] at hBound
      refine takes_itemOf (here.takes_number (by omega) fun _ => rfl) fun input more hInput => ?_
      rw [content_tag plain]
      exact hBack.takes within (by omega) input more hInput

/-- Values are read back as deep as nesting is allowed. -/
theorem readsBack_itemAt (bound levels : Nat) :
    Continuation.ReadsBack (itemAt bound levels) bound levels := by
  induction levels with
  | zero =>
      show Continuation.ReadsBack (content bound none) bound 0
      exact readsBack_content fun _ hLess => absurd hLess (Nat.succ_ne_zero _).symm
  | succ levels ih =>
      refine readsBack_content fun less hLess => ⟨itemAt bound levels, rfl, ?_⟩
      rwa [← Nat.succ.inj hLess]

end Content

/-- Decoding undoes encoding.  A document is decoded from every one of its encodings, and its tree is
the one that is loaded from them. -/
theorem decode_of_encodes {value : Value} {bytes : List UInt8}
    (h : Encodes maxDocumentNesting value bytes) :
    decode (.ofBytes bytes) = .ok value ∧ load (.ofBytes bytes) = value.toTree := by
  have hInput : (Input.ofBytes bytes).Holds (bytes ++ []) := by
    rw [List.append_nil]
    exact ⟨Input.bytes_ofBytes bytes, rfl⟩
  obtain ⟨rest, hItem, hRest⟩ :=
    (readsBack_itemAt (bytes.length + 1) maxDocumentNesting).takes h (Nat.lt_succ_self _) _ [] hInput
  have hDecode : decode (.ofBytes bytes) = .ok value := by
    rw [decode_eq_bind, Input.bytes_ofBytes, hItem]
    show rest.conclude value = .ok value
    rw [Input.conclude, hRest.bytes_eq, hRest.ends]
  refine ⟨hDecode, ?_⟩
  rw [load, hDecode]
  rfl

/-- A tagged map of open length.  Its first key is tagged and in chunks, the second is the same text in
one piece; heads are wider than they need to be, and a not-a-number has a sign and a fraction of its own. -/
theorem decode_of_encodes_tagged :
    Encodes maxDocumentNesting
        (.mapping [
          (.scalar (.text "é"), .sequence [.scalar (.integer (-1)), .scalar (.bytes [0x07]),
            .scalar (.float (.ofFraction true 3 2)), .scalar (.float .nan)]),
          (.scalar (.text "é"), .scalar .null)])
        [0xD8, 0x05, 0xBF, 0xC6, 0x7F, 0x62, 0xC3, 0xA9, 0x60, 0xFF, 0x99, 0x00, 0x04, 0x38, 0x00,
          0x5F, 0x41, 0x07, 0xFF, 0xFB, 0xBF, 0xF8, 0x00, 0x00, 0x00, 0x00, 0x00, 0x00,
          0xFB, 0xFF, 0xF4, 0x00, 0x00, 0x00, 0x00, 0x00, 0x01, 0x62, 0xC3, 0xA9, 0xF7, 0xFF] ∧
      decode (.ofBytes [0xD8, 0x05, 0xBF, 0xC6, 0x7F, 0x62, 0xC3, 0xA9, 0x60, 0xFF, 0x99, 0x00, 0x04,
          0x38, 0x00, 0x5F, 0x41, 0x07, 0xFF, 0xFB, 0xBF, 0xF8, 0x00, 0x00, 0x00, 0x00, 0x00, 0x00,
          0xFB, 0xFF, 0xF4, 0x00, 0x00, 0x00, 0x00, 0x00, 0x01, 0x62, 0xC3, 0xA9, 0xF7, 0xFF]) =
        .ok (.mapping [
          (.scalar (.text "é"), .sequence [.scalar (.integer (-1)), .scalar (.bytes [0x07]),
            .scalar (.float (.ofFraction true 3 2)), .scalar (.float .nan)]),
          (.scalar (.text "é"), .scalar .null)]) := by
  have hText : EncodesTextChunks ['é'] [0x62, 0xC3, 0xA9, 0x60] :=
    @EncodesTextChunks.cons ['é'] [] [0x62] [0x60] (.immediate (by decide))
      (@EncodesTextChunks.cons [] [] [0x60] [] (.immediate (by decide)) .nil)
  have hFirst : Encodes 254 (.scalar (.text "é")) [0xC6, 0x7F, 0x62, 0xC3, 0xA9, 0x60, 0xFF] :=
    @Encodes.tagged 253 6 _ [0xC6] _ (.immediate (by decide)) (by decide) (.chunkedText hText)
  have hBytes : EncodesByteChunks [0x07] [0x41, 0x07] :=
    @EncodesByteChunks.cons [0x07] [] [0x41] [] (.immediate (by decide)) .nil
  have hHalves : EncodesNumber (.ofFraction true 3 2) 0xBFF8000000000000 := by
    have hValue : Binary64.ofFraction true 3 2 = .finite true ⟨0x3FF8000000000000, by decide⟩ := by
      decide +kernel
    rw [hValue]
    exact .finite true _
  have hNaN : EncodesNumber .nan 0xFFF4000000000001 :=
    .nan (by decide) (by decide) (by decide)
  have hItems : EncodesItems 253
      [.scalar (.integer (-1)), .scalar (.bytes [0x07]), .scalar (.float (.ofFraction true 3 2)),
        .scalar (.float .nan)]
      [0x38, 0x00, 0x5F, 0x41, 0x07, 0xFF, 0xFB, 0xBF, 0xF8, 0x00, 0x00, 0x00, 0x00, 0x00, 0x00,
        0xFB, 0xFF, 0xF4, 0x00, 0x00, 0x00, 0x00, 0x00, 0x01] :=
    @EncodesItems.cons _ _ _ [0x38, 0x00] _
      (@Encodes.negative _ 0 _ (.following 0 (by decide) (by decide)))
      (@EncodesItems.cons _ _ _ [0x5F, 0x41, 0x07, 0xFF] _ (.chunkedBytes hBytes)
        (.cons (.float hHalves) (.cons (.float hNaN) .nil)))
  have hSequence : Encodes 254
      (.sequence [.scalar (.integer (-1)), .scalar (.bytes [0x07]),
        .scalar (.float (.ofFraction true 3 2)), .scalar (.float .nan)])
      [0x99, 0x00, 0x04, 0x38, 0x00, 0x5F, 0x41, 0x07, 0xFF, 0xFB, 0xBF, 0xF8, 0x00, 0x00, 0x00,
        0x00, 0x00, 0x00, 0xFB, 0xFF, 0xF4, 0x00, 0x00, 0x00, 0x00, 0x00, 0x01] :=
    @Encodes.sequence 253 _ [0x99, 0x00, 0x04] _ (.following 1 (by decide) (by decide)) hItems
  have hSecond : Encodes 254 (.scalar (.text "é")) [0x62, 0xC3, 0xA9] :=
    @Encodes.text _ ['é'] [0x62] (.immediate (by decide))
  have hEntries := EncodesEntries.cons hFirst hSequence (.cons hSecond .undefined .nil)
  have h := @Encodes.tagged 255 5 _ [0xD8, 0x05] _ (.following 0 (by decide) (by decide)) (by decide)
    (.openMapping hEntries)
  exact ⟨h, (decode_of_encodes h).1⟩

end CborPath
