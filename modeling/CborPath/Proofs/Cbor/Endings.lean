import CborPath.Proofs.Cbor.Abreast

/-!
# Endings

A document is decoded from its bytes alone, however they are delivered.  Where the input ends shows
only when one more byte is asked for, be it within the item or after it: an input that fails there
fails with its own error, and any other error is that of the bytes.

Hence no document is the start of another.  With bytes after it there is trailing data, and without
its last bytes the input ends too early; no other error and no other value comes of it.
-/

namespace CborPath

@[simp] theorem Input.bytes_ofBytes (bytes : List UInt8) :
    (ofBytes bytes).bytes = bytes := by
  cases bytes with
  | nil => rfl
  | cons first others => simp [ofBytes, Input.bytes, Delivery.ofBytes]

namespace Input

/-- The outcome of a document whose item is over: nothing may be left, and the end must be reached. -/
def conclude (rest : Input) (value : Value) : Except DecodeError Value :=
  match rest.bytes, rest.ending with
  | _ :: _, _ => .error .trailingData
  | [], .endOfInput => .ok value
  | [], .failure message => .error (.inputFailure message)

theorem conclude_eq (rest : Input) (value : Value) :
    rest.conclude value =
      match rest.take 1 with
      | .ok _ => .error .trailingData
      | .error .endOfInput => .ok value
      | .error (.failure message) => .error (.inputFailure message) := by
  rw [conclude]
  cases hTake : rest.take 1 with
  | error ending =>
      obtain ⟨hShort, rfl⟩ := take_eq_error_iff.1 hTake
      rw [List.length_eq_zero_iff.1 (Nat.lt_one_iff.1 hShort)]
      cases rest.ending <;> rfl
  | ok taken =>
      obtain ⟨hBytes, hLength, -, -⟩ := bytes_take hTake
      obtain ⟨byte, hByte⟩ := List.length_eq_one_iff.1 hLength
      rw [hBytes, hByte]
      rfl

end Input

theorem decode_eq_bind (input : Input) :
    decode input =
      itemOf (itemAt (input.bytes.length + 1) maxDocumentNesting) input >>=
        fun item => item.2.conclude item.1 := by
  rw [decode]
  exact congrArg _ (funext fun item => (Input.conclude_eq item.2 item.1).symm)

/-- The outcome of a document whose input has another ending instead of its end. -/
def Ending.inPlaceOfEnd (ending : Ending) : Except DecodeError Value → Except DecodeError Value
  | .ok value =>
      match ending with
      | .endOfInput => .ok value
      | .failure message => .error (.inputFailure message)
  | .error .endOfInput => .error (.ofEnding ending)
  | .error e => .error e

namespace Sequel

variable {sequel : Sequel} {input longer : Input} (h : sequel.Continues input longer)
include h

/-- The items of the two inputs are decoded abreast, each within its own bound. -/
theorem Continues.abreast_item :
    sequel.Abreast (input.bytes.length + 1)
      (itemOf (itemAt (input.bytes.length + 1) maxDocumentNesting) input)
      (itemOf (itemAt (longer.bytes.length + 1) maxDocumentNesting) longer) := by
  have hBound : longer.bytes.length + 1 = input.bytes.length + 1 + sequel.more.length := by
    rw [h.bytes_eq, List.length_append, Nat.add_right_comm]
  rw [hBound]
  exact runAbreast_itemOf (runAbreast_itemAt maxDocumentNesting) _ (Nat.le_refl _) input longer h
    (Nat.lt_succ_self _)

/-- With the same bytes only the ending makes a difference. -/
theorem Continues.decode_of_more_eq_nil (hMore : sequel.more = []) :
    decode longer = sequel.ending.inPlaceOfEnd (decode input) := by
  have hItem := h.abreast_item
  rw [decode_eq_bind, decode_eq_bind]
  generalize itemOf _ input = outcome, itemOf _ longer = outcome' at hItem
  cases hItem with
  | @result value rest longer hRest _ =>
      have hBytes := hRest.bytes_eq
      rw [hMore, List.append_nil] at hBytes
      show longer.conclude value = sequel.ending.inPlaceOfEnd (rest.conclude value)
      rw [Input.conclude, Input.conclude, hBytes, hRest.ends, hRest.ending_eq]
      cases rest.bytes with
      | nil => cases sequel.ending <;> rfl
      | cons byte others => rfl
  | @fault e hFault =>
      show Except.error e = sequel.ending.inPlaceOfEnd (.error e)
      cases e <;> first | rfl | cases hFault
  | shortage hShort =>
      rw [hShort hMore]
      rfl

/-- With more bytes the input is not over where the other ends. -/
theorem Continues.conclude_longer (hMore : sequel.more ≠ []) (value : Value) :
    longer.conclude value = .error .trailingData := by
  rw [Input.conclude, h.bytes_eq]
  obtain ⟨byte, others, hCons⟩ :=
    List.exists_cons_of_ne_nil (List.append_ne_nil_of_right_ne_nil input.bytes hMore)
  rw [hCons]

/-- A document is not followed by anything. -/
theorem Continues.decode_longer_of_ok (hMore : sequel.more ≠ []) {value : Value}
    (hValue : decode input = .ok value) :
    decode longer = .error .trailingData := by
  have hItem := h.abreast_item
  rw [decode_eq_bind] at hValue ⊢
  generalize itemOf _ input = outcome, itemOf _ longer = outcome' at hItem hValue
  cases hItem with
  | result hRest _ => exact hRest.conclude_longer hMore _
  | fault hFault => cases hValue
  | shortage hShort => cases hValue

/-- The start of a document is not a document, and has no fault of its own. -/
theorem Continues.decode_of_longer_ok (hMore : sequel.more ≠ []) {value : Value}
    (hValue : decode longer = .ok value) :
    decode input = .error .endOfInput := by
  have hItem := h.abreast_item
  rw [decode_eq_bind] at hValue ⊢
  generalize itemOf _ input = outcome, itemOf _ longer = outcome' at hItem hValue
  cases hItem with
  | @result value' rest longer hRest _ =>
      have hTrailing := hRest.conclude_longer hMore value'
      rw [show longer.conclude value' = .ok value from hValue] at hTrailing
      cases hTrailing
  | fault hFault => cases hValue
  | shortage hShort => rfl

end Sequel

theorem continues_ofBytes (bytes more : List UInt8) :
    Sequel.Continues ⟨more, .endOfInput⟩ (.ofBytes bytes) (.ofBytes (bytes ++ more)) :=
  ⟨by rw [Input.bytes_ofBytes, Input.bytes_ofBytes], rfl, rfl, rfl⟩

/-- Decoding does not depend on how bytes are delivered.  An input that fails after its bytes fails
with its own error where the bytes alone are a document, or end too early; where the bytes alone are at
fault the error is theirs. -/
theorem decode_delivered (deliveries : List Delivery) :
    decode ⟨deliveries, .endOfInput, 0⟩ = decode (.ofBytes (Delivery.all deliveries)) ∧
    ∀ message,
      decode ⟨deliveries, .failure message, 0⟩ =
        match decode (.ofBytes (Delivery.all deliveries)) with
        | .ok _ => .error (.inputFailure message)
        | .error .endOfInput => .error (.inputFailure message)
        | .error e => .error e := by
  have hDelivered : ∀ ending, decode ⟨deliveries, ending, 0⟩ =
      ending.inPlaceOfEnd (decode (.ofBytes (Delivery.all deliveries))) := by
    intro ending
    have h : Sequel.Continues ⟨[], ending⟩ (.ofBytes (Delivery.all deliveries))
        ⟨deliveries, ending, 0⟩ := by
      refine ⟨?_, rfl, rfl, rfl⟩
      rw [Input.bytes_ofBytes, List.append_nil]
      rfl
    exact h.decode_of_more_eq_nil rfl
  refine ⟨?_, fun message => ?_⟩
  · rw [hDelivered]
    cases decode (.ofBytes (Delivery.all deliveries)) with
    | ok value => rfl
    | error e => cases e <;> rfl
  · rw [hDelivered]
    cases decode (.ofBytes (Delivery.all deliveries)) with
    | ok value => rfl
    | error e => cases e <;> rfl

/-- No document is the start of another.  Bytes after a document are trailing data, and a document
without its last bytes ends too early. -/
theorem decode_prefixFree {bytes : List UInt8} {value : Value}
    (h : decode (.ofBytes bytes) = .ok value) :
    (∀ more, more ≠ [] → decode (.ofBytes (bytes ++ more)) = .error .trailingData) ∧
    (∀ start, start <+: bytes → start ≠ bytes →
      decode (.ofBytes start) = .error .endOfInput) ∧
    DecodeError.trailingData.detail = "trailing data after CBOR item" ∧
    DecodeError.endOfInput.detail = "unexpected end of input" := by
  refine ⟨fun more hMore => ?_, fun start hStart hNe => ?_, rfl, rfl⟩
  · exact (continues_ofBytes bytes more).decode_longer_of_ok hMore h
  · obtain ⟨more, rfl⟩ := hStart
    have hMore : more ≠ [] := by
      rintro rfl
      exact hNe (List.append_nil start).symm
    exact (continues_ofBytes start more).decode_of_longer_ok hMore h

theorem decode_prefixFree_pair :
    decode (.ofBytes [0x9F, 0xC1, 0x18, 0x05, 0x62, 0xC3, 0xA9, 0xFF]) =
        .ok (.sequence [.scalar (.integer 5), .scalar (.text "é")]) ∧
      decode (.ofBytes [0x9F, 0xC1, 0x18, 0x05, 0x62, 0xC3, 0xA9, 0xFF, 0x00]) =
        .error .trailingData ∧
      [0x9F, 0xC1, 0x18, 0x05, 0x62, 0xC3] <+: [0x9F, 0xC1, 0x18, 0x05, 0x62, 0xC3, 0xA9, 0xFF] ∧
      decode (.ofBytes [0x9F, 0xC1, 0x18, 0x05, 0x62, 0xC3]) = .error .endOfInput := by
  have h : decode (.ofBytes [0x9F, 0xC1, 0x18, 0x05, 0x62, 0xC3, 0xA9, 0xFF]) =
      .ok (.sequence [.scalar (.integer 5), .scalar (.text "é")]) := by
    rfl
  exact ⟨h, (decode_prefixFree h).1 [0x00] (by decide), ⟨[0xA9, 0xFF], rfl⟩,
    (decode_prefixFree h).2.1 _ ⟨[0xA9, 0xFF], rfl⟩ (by decide)⟩

end CborPath
