/-!
# Inputs

Bytes reach a reader in deliveries: chunks of at least one byte, with interruptions among them,
until the input ends or fails.  A reader asks for an exact number of bytes, and gets them from as
many chunks as it takes, passing over interruptions.  How the bytes were cut into chunks is never
visible to it.
-/

namespace CborPath

/-- One delivery of an input. -/
inductive Delivery
  | chunk (first : UInt8) (others : List UInt8)
  | interruption
  deriving DecidableEq, Repr

namespace Delivery

/-- The bytes of a delivery. -/
def bytes : Delivery → List UInt8
  | chunk first others => first :: others
  | interruption => []

/-- The delivery of some bytes, if there are any. -/
def ofBytes : List UInt8 → List Delivery
  | [] => []
  | first :: others => [chunk first others]

/-- All bytes of some deliveries. -/
def all (deliveries : List Delivery) : List UInt8 :=
  deliveries.flatMap bytes

@[simp] theorem all_nil : all [] = [] :=
  rfl

@[simp] theorem all_interruption (deliveries : List Delivery) :
    all (interruption :: deliveries) = all deliveries := by
  simp [all, bytes]

@[simp] theorem all_chunk (first : UInt8) (others : List UInt8) (deliveries : List Delivery) :
    all (chunk first others :: deliveries) = first :: others ++ all deliveries := by
  simp [all, bytes]

end Delivery

/-- What comes after the last delivery. -/
inductive Ending
  | endOfInput
  | failure (message : String)
  deriving DecidableEq, Repr

/-- The deliveries that are still to come, what comes after them, and the number of bytes taken
before. -/
structure Input where
  deliveries : List Delivery
  ending : Ending
  taken : Nat := 0
  deriving DecidableEq, Repr

namespace Input

/-- The input that delivers some bytes at once and then ends. -/
def ofBytes (bytes : List UInt8) : Input :=
  { deliveries := Delivery.ofBytes bytes, ending := .endOfInput }

/-- The bytes that are still to come. -/
def bytes (input : Input) : List UInt8 :=
  Delivery.all input.deliveries

/-- Takes an exact number of bytes off deliveries, if there are as many. -/
def takeBytes? : Nat → List Delivery → Option (List UInt8 × List Delivery)
  | 0, deliveries => some ([], deliveries)
  | _ + 1, [] => none
  | count + 1, .interruption :: deliveries => takeBytes? (count + 1) deliveries
  | count + 1, .chunk first others :: deliveries =>
      match (first :: others).splitAt (count + 1) with
      | (here, next :: left) => some (here, .chunk next left :: deliveries)
      | (here, []) =>
          match takeBytes? (count + 1 - here.length) deliveries with
          | none => none
          | some (more, deliveries) => some (here ++ more, deliveries)

/-- Takes an exact number of bytes.  If there are fewer, the ending shows. -/
def take (count : Nat) (input : Input) : Except Ending (List UInt8 × Input) :=
  match takeBytes? count input.deliveries with
  | none => .error input.ending
  | some (bytes, deliveries) =>
      .ok (bytes, { input with deliveries := deliveries, taken := input.taken + count })

/-- What is taken, and what is left, are the first bytes of the deliveries and the others, however
these were cut. -/
theorem takeBytes?_eq (count : Nat) (deliveries : List Delivery) :
    (takeBytes? count deliveries).map (fun taken => (taken.1, Delivery.all taken.2)) =
      if count ≤ (Delivery.all deliveries).length then
        some ((Delivery.all deliveries).take count, (Delivery.all deliveries).drop count)
      else none := by
  fun_induction takeBytes? count deliveries with
  | case1 deliveries => simp
  | case2 count => simp
  | case3 count deliveries ih => simpa using ih
  | case4 count first others deliveries here next left h =>
      rw [List.splitAt_eq, Prod.mk.injEq] at h
      obtain ⟨rfl, hDrop⟩ := h
      have hLength := congrArg List.length hDrop
      have hWithin : count + 1 ≤ (first :: others).length := by
        simp only [List.length_drop, List.length_cons] at hLength ⊢
        omega
      have hTotal : count + 1 ≤ ((first :: others) ++ Delivery.all deliveries).length := by
        rw [List.length_append]
        omega
      simp only [Option.map_some, Delivery.all_chunk, if_pos hTotal,
        List.take_append_of_le_length hWithin, List.drop_append_of_le_length hWithin, hDrop]
  | case5 count first others deliveries here h hNone ih =>
      rw [List.splitAt_eq, Prod.mk.injEq] at h
      obtain ⟨rfl, hDrop⟩ := h
      have hWithin : (first :: others).length ≤ count + 1 := List.drop_eq_nil_iff.1 hDrop
      rw [hNone, List.take_of_length_le hWithin, Option.map_none] at ih
      rw [Option.map_none, Delivery.all_chunk, List.length_append]
      split at ih
      · cases ih
      · rw [if_neg]
        omega
  | case6 count first others deliveries here h more left hSome ih =>
      rw [List.splitAt_eq, Prod.mk.injEq] at h
      obtain ⟨rfl, hDrop⟩ := h
      have hWithin : (first :: others).length ≤ count + 1 := List.drop_eq_nil_iff.1 hDrop
      rw [hSome, List.take_of_length_le hWithin, Option.map_some] at ih
      rw [Option.map_some, Delivery.all_chunk, List.length_append, List.take_of_length_le hWithin]
      split at ih
      · injection ih with ih
        rw [Prod.mk.injEq] at ih
        rw [if_pos (by omega), List.take_append, List.drop_append, List.take_of_length_le hWithin,
          List.drop_eq_nil_of_le hWithin, ← ih.1, ih.2, List.nil_append]
      · cases ih

/-- Fewer bytes than asked for are never taken: the ending shows if and only if there are not as
many. -/
theorem take_eq_error_iff {count : Nat} {input : Input} {ending : Ending} :
    input.take count = .error ending ↔ input.bytes.length < count ∧ input.ending = ending := by
  have h := takeBytes?_eq count input.deliveries
  unfold take bytes
  cases hTaken : takeBytes? count input.deliveries with
  | none =>
      rw [hTaken, Option.map_none] at h
      split at h
      · cases h
      · simp only [Except.error.injEq]
        constructor
        · intro hEnding
          exact ⟨by omega, hEnding⟩
        · exact fun hBoth => hBoth.2
  | some taken =>
      rw [hTaken, Option.map_some] at h
      split at h
      · simp only [reduceCtorEq, false_iff, not_and]
        omega
      · cases h

/-- What is taken is the start of the input, and what is left is the rest of it. -/
theorem bytes_take {count : Nat} {input rest : Input} {taken : List UInt8}
    (h : input.take count = .ok (taken, rest)) :
    input.bytes = taken ++ rest.bytes ∧ taken.length = count ∧
      rest.ending = input.ending ∧ rest.taken = input.taken + count := by
  have hEq := takeBytes?_eq count input.deliveries
  unfold take at h
  cases hTaken : takeBytes? count input.deliveries with
  | none =>
      rw [hTaken] at h
      cases h
  | some pair =>
      obtain ⟨bytes, deliveries⟩ := pair
      rw [hTaken] at h
      cases h
      rw [hTaken, Option.map_some] at hEq
      split at hEq
      · rename_i hCount
        injection hEq with hEq
        obtain ⟨rfl, hRest⟩ := Prod.mk.injEq .. ▸ hEq
        refine ⟨?_, ?_, rfl, rfl⟩
        · rw [Input.bytes, Input.bytes, hRest, List.take_append_drop]
        · rw [List.length_take]
          omega
      · cases hEq

end Input

end CborPath
