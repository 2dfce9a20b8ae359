import CborPath.Cbor.Decode
import CborPath.Cbor.Encoding
import CborPath.Proofs.Number.Binary64
import CborPath.Proofs.Text.Utf8

/-!
# Taking what was written

A decoder takes some bytes if it takes them, and nothing else, off the start of every input that
begins with them.  What each part of an encoding writes is taken by the part of the decoder that is
meant for it: arguments and heads of every width, texts in pieces, and strings in chunks.
-/

namespace CborPath

/-- Whether exactly the given bytes are still to come before the input ends. -/
structure Input.Holds (input : Input) (bytes : List UInt8) : Prop where
  bytes_eq : input.bytes = bytes
  ends : input.ending = .endOfInput

/-- Whether an outcome is the given result, with the given bytes left. -/
def Leaves {α : Type} (outcome : Except DecodeError (α × Input)) (x : α) (left : List UInt8) :
    Prop :=
  ∃ rest, outcome = .ok (x, rest) ∧ rest.Holds left

/-- Whether a decoder takes the given bytes off the start of an input, and makes the given result of
them, whatever follows. -/
def Takes {α : Type} (d : Decoder α) (bytes : List UInt8) (x : α) : Prop :=
  ∀ input more, input.Holds (bytes ++ more) → Leaves (d input) x more

section Takes

variable {α β : Type}

/-- What is left after the first step is there for the next. -/
theorem Leaves.bind {outcome : Except DecodeError (α × Input)}
    {next : α × Input → Except DecodeError (β × Input)} {x : α} {y : β} {left more : List UInt8}
    (h : Leaves outcome x left) (hNext : ∀ rest, rest.Holds left → Leaves (next (x, rest)) y more) :
    Leaves (outcome >>= next) y more := by
  obtain ⟨rest, rfl, hRest⟩ := h
  exact hNext rest hRest

theorem Input.Holds.leaves {input : Input} {left : List UInt8} (h : input.Holds left) (x : α) :
    Leaves (.ok (x, input)) x left :=
  ⟨input, rfl, h⟩

theorem takes_takeBytes {count : Nat} {bytes : List UInt8} (h : bytes.length = count) :
    Takes (takeBytes count) bytes bytes := by
  intro input more hInput
  rw [takeBytes]
  cases hTake : input.take count with
  | error ending =>
      obtain ⟨hShort, -⟩ := Input.take_eq_error_iff.1 hTake
      rw [hInput.bytes_eq, List.length_append] at hShort
      omega
  | ok taken =>
      obtain ⟨taken, rest⟩ := taken
      obtain ⟨hBytes, hCount, hEnding, -⟩ := Input.bytes_take hTake
      rw [hInput.bytes_eq] at hBytes
      obtain ⟨rfl, hRest⟩ := List.append_inj hBytes (h.trans hCount.symm)
      exact ⟨rest, rfl, hRest.symm, hEnding.trans hInput.ends⟩

end Takes

section Heads

theorem naturalOfBytes_append (bytes : List UInt8) (byte : UInt8) :
    naturalOfBytes (bytes ++ [byte]) = naturalOfBytes bytes * 256 + byte.toNat := by
  rw [naturalOfBytes, List.foldl_append]
  rfl

/-- A number is read back from as many bytes as hold it. -/
theorem naturalOfBytes_bytesOfNatural {width n : Nat} (h : n < Nat.pow 256 width) :
    naturalOfBytes (bytesOfNatural width n) = n := by
  induction width generalizing n with
  | zero => exact (Nat.lt_one_iff.1 h).symm
  | succ width ih =>
      have hHigh : n / 256 < Nat.pow 256 width := Nat.div_lt_of_lt_mul (Nat.mul_comm _ _ ▸ h)
      have hLow : (UInt8.ofNat (n % 256)).toNat = n % 256 := by
        rw [UInt8.toNat_ofNat', Nat.mod_mod]
      rw [bytesOfNatural, naturalOfBytes_append, ih hHigh, hLow]
      exact Nat.div_add_mod' n 256

theorem takes_takeArgument_immediate {info : Nat} (h : info < 24) (offset : Nat) :
    Takes (takeArgument offset info) [] (.immediate info) := by
  intro input more hInput
  rw [takeArgument, if_pos h]
  exact hInput.leaves _

theorem takes_takeArgument_following {power n : Nat} (hKnown : power < 4)
    (hFits : n < Nat.pow 256 (Nat.pow 2 power)) (offset : Nat) :
    Takes (takeArgument offset (24 + power)) (bytesOfNatural (Nat.pow 2 power) n)
      (.following (Nat.pow 2 power) n) := by
  intro input more hInput
  rw [takeArgument, if_neg (by omega), if_pos (by omega), Nat.add_sub_cancel_left]
  refine (takes_takeBytes (length_bytesOfNatural _ _) input more hInput).bind fun rest hRest => ?_
  dsimp only
  rw [naturalOfBytes_bytesOfNatural hFits]
  exact hRest.leaves _

theorem takes_takeArgument_open (offset : Nat) :
    Takes (takeArgument offset 31) [] .openEnded :=
  fun _ _ hInput => hInput.leaves _

/-- A head is its first byte and its argument. -/
theorem takes_takeHead {major info : Nat} {argument : Argument} {head : Head}
    {bytes : List UInt8} (hMajor : major < 8) (hInfo : info < 32)
    (hArgument : ∀ offset, Takes (takeArgument offset info) bytes argument)
    (hHead : Head.of? major argument = some head) :
    Takes takeHead (UInt8.ofNat (32 * major + info) :: bytes) head := by
  intro input more hInput
  have hByte : naturalOfBytes [UInt8.ofNat (32 * major + info)] = 32 * major + info := by
    rw [← List.nil_append [_], naturalOfBytes_append, UInt8.toNat_ofNat',
      Nat.mod_eq_of_lt (by omega)]
    exact Nat.zero_add _
  have hHigh : (32 * major + info) / 32 = major := by omega
  have hLow : (32 * major + info) % 32 = info := by omega
  rw [takeHead]
  refine (takes_takeBytes (List.length_singleton) input (bytes ++ more) hInput).bind
    fun rest hRest => ?_
  dsimp only
  rw [hByte, hHigh, hLow]
  refine (hArgument _ rest more hRest).bind fun rest hRest => ?_
  dsimp only
  rw [hHead]
  exact hRest.leaves head

/-- A head is read back from all of its forms. -/
theorem EncodesHead.takes {major n : Nat} {head : Head} {bytes : List UInt8}
    (h : EncodesHead major n bytes) (hMajor : major < 8)
    (hHead : ∀ argument, argument.number? = some n → Head.of? major argument = some head) :
    Takes takeHead bytes head := by
  cases h with
  | immediate hSmall =>
      exact takes_takeHead hMajor (by omega) (takes_takeArgument_immediate hSmall)
        (hHead (.immediate n) rfl)
  | following power hKnown hFits =>
      rw [Nat.add_assoc]
      exact takes_takeHead hMajor (by omega) (takes_takeArgument_following hKnown hFits)
        (hHead (.following _ n) rfl)

/-- A head that is made of a number. -/
theorem EncodesHead.takes_number {major n : Nat} {make : Nat → Head} {bytes : List UInt8}
    (h : EncodesHead major n bytes) (hMajor : major < 8)
    (hMake : ∀ argument, Head.of? major argument = argument.number?.map make) :
    Takes takeHead bytes (make n) := by
  refine h.takes hMajor fun argument hNumber => ?_
  rw [hMake, hNumber]
  rfl

/-- A head that is made of a length. -/
theorem EncodesHead.takes_length {major n : Nat} {make : Option Nat → Head} {bytes : List UInt8}
    (h : EncodesHead major n bytes) (hMajor : major < 8)
    (hMake : ∀ argument, Head.of? major argument = some (make argument.number?)) :
    Takes takeHead bytes (make (some n)) := by
  refine h.takes hMajor fun argument hNumber => ?_
  rw [hMake, hNumber]

theorem takes_openHead {major : Nat} {head : Head} (hMajor : major < 8)
    (hHead : Head.of? major .openEnded = some head) :
    Takes takeHead [openHead major] head :=
  takes_takeHead hMajor (by omega) takes_takeArgument_open hHead

theorem takes_simple {n : Nat} (h : n < 24) :
    Takes takeHead [UInt8.ofNat (32 * 7 + n)] (.simple n) :=
  takes_takeHead (by omega) (by omega) (takes_takeArgument_immediate h) rfl

theorem EncodesNumber.lt {x : Binary64} {bits : Nat} (h : EncodesNumber x bits) :
    bits < 2 ^ 64 := by
  cases h with
  | finite negative position =>
      have hLess : position.val < 2047 * 2 ^ 52 := position.isLt
      have hSign : negative.toNat ≤ 1 := Bool.toNat_le negative
      rw [Nat.pow_eq]
      omega
  | infinite negative => cases negative <;> decide
  | nan fits _ _ => exact fits

/-- The bits of a number are read as the number. -/
theorem EncodesNumber.ofBits_eq {x : Binary64} {bits : Nat} (h : EncodesNumber x bits) :
    Binary64.ofBits bits = x := by
  cases h with
  | finite negative position => exact Binary64.ofBits_of_toBits?_eq_some rfl
  | infinite negative => exact Binary64.ofBits_of_toBits?_eq_some rfl
  | nan fits exponent fraction =>
      have hGreater : Binary64.finiteCount < bits % 2 ^ 63 := by
        show 2047 * 2 ^ 52 < _
        simp only [Nat.pow_eq] at exponent fraction
        omega
      rw [Binary64.ofBits, Nat.pow_eq, dif_neg (Nat.lt_asymm hGreater), if_neg (Nat.ne_of_gt hGreater)]

theorem takes_float {x : Binary64} {bits : Nat} (h : EncodesNumber x bits) :
    Takes takeHead (UInt8.ofNat (32 * 7 + (24 + 3)) :: bytesOfNatural 8 bits) (.float x) := by
  rw [← h.ofBits_eq]
  exact takes_takeHead (by omega) (by omega) (takes_takeArgument_following (by omega) h.lt) rfl

theorem takes_stopByte :
    Takes takeHead [stopByte] .stop :=
  @takes_openHead 7 _ (by omega) rfl

theorem EncodesHead.length_pos {major n : Nat} {bytes : List UInt8} (h : EncodesHead major n bytes) :
    0 < bytes.length := by
  cases h <;> exact Nat.succ_pos _

end Heads

section Texts

/-- Where no byte is left of a text, none is saved. -/
theorem takes_takeTextPieces_nil {offset bound : Nat} {saved : List UInt8} {cs : List Char}
    (h : saved ++ [] = Utf8.encode cs) (hEnd : saved = []) :
    Takes (takeTextPieces offset bound saved 0) [] cs := by
  subst hEnd
  obtain rfl := Utf8.eq_nil_of_encode_eq_nil h.symm
  intro input more hInput
  cases bound <;> exact hInput.leaves []

/-- A text is taken in pieces.  A piece may cut a character, whose first bytes are saved for the
next one. -/
theorem takes_takeTextPieces {offset bound : Nat} {saved bytes : List UInt8} {cs : List Char}
    (h : saved ++ bytes = Utf8.encode cs) (hSaved : saved.length ≤ 3)
    (hEnd : bytes = [] → saved = []) (hBound : bytes.length ≤ bound) :
    Takes (takeTextPieces offset bound saved bytes.length) bytes cs := by
  induction bound generalizing saved bytes cs with
  | zero =>
      obtain rfl := List.length_eq_zero_iff.1 (Nat.le_zero.1 hBound)
      exact takes_takeTextPieces_nil h (hEnd rfl)
  | succ bound ih =>
      by_cases hNil : bytes = []
      · subst hNil
        exact takes_takeTextPieces_nil h (hEnd rfl)
      · have hPositive := List.length_pos_iff.2 hNil
        intro input more hInput
        rw [takeTextPieces, if_neg (by omega)]
        dsimp only
        generalize hCount : min pieceLength (saved.length + bytes.length) - saved.length = count
        rw [pieceLength] at hCount
        obtain ⟨fresh, later, rfl, hFresh⟩ :
            ∃ fresh later, bytes = fresh ++ later ∧ fresh.length = count :=
          ⟨bytes.take count, bytes.drop count, (List.take_append_drop count bytes).symm,
            List.length_take_of_le (by omega)⟩
        rw [← List.append_assoc] at h
        rw [List.append_assoc] at hInput
        rw [List.length_append] at hCount hPositive hBound ⊢
        obtain ⟨here, there, broken, hSplit, rfl, hThere, hBroken, hWhole⟩ :=
          Utf8.splitValid_of_append_eq_encode h
        refine (takes_takeBytes hFresh input (later ++ more) hInput).bind fun rest hRest => ?_
        dsimp only
        rw [hSplit, Nat.add_sub_cancel_left]
        dsimp only
        rw [if_neg (by omega)]
        refine (ih hThere hBroken hWhole (by omega) rest more hRest).bind fun rest hRest => ?_
        exact hRest.leaves _

/-- A text is taken in pieces from its start. -/
theorem takes_takeTextPieces_encode (offset : Nat) (cs : List Char) :
    Takes (takeTextPieces offset (Utf8.encode cs).length [] (Utf8.encode cs).length)
      (Utf8.encode cs) cs :=
  takes_takeTextPieces (List.nil_append _) (by simp) (by simp) (Nat.le_refl _)

theorem takes_takeText (offset : Nat) (cs : List Char) :
    Takes (takeText offset (Utf8.encode cs).length) (Utf8.encode cs) cs := by
  intro input more hInput
  rw [takeText]
  split
  · refine (takes_takeBytes rfl input more hInput).bind fun rest hRest => ?_
    dsimp only
    rw [Utf8.decode?_encode]
    exact hRest.leaves cs
  · exact takes_takeTextPieces_encode offset cs input more hInput

end Texts

/-- Whether a loop, given more rounds than there are bytes, takes the bytes and the break after
them. -/
def TakesToStop {α : Type} (loop : Nat → Decoder α) (bytes : List UInt8) (x : α) : Prop :=
  ∀ rounds, bytes.length < rounds → Takes (loop rounds) (bytes ++ [stopByte]) x

section Loops

variable {α : Type} {loop : Nat → Decoder α} {x y : α}

theorem TakesToStop.start (h : ∀ rounds, Takes (loop (rounds + 1)) [stopByte] x) :
    TakesToStop loop [] x := by
  intro rounds hRounds
  obtain ⟨rounds, rfl⟩ := Nat.exists_eq_succ_of_ne_zero (Nat.ne_zero_of_lt hRounds)
  exact h rounds

/-- One round takes at least a byte, so that enough rounds are left for the bytes after it. -/
theorem TakesToStop.round {first later : List UInt8} (hFirst : 0 < first.length)
    (hLater : TakesToStop loop later y)
    (h : ∀ rounds, Takes (loop rounds) (later ++ [stopByte]) y →
      Takes (loop (rounds + 1)) (first ++ (later ++ [stopByte])) x) :
    TakesToStop loop (first ++ later) x := by
  intro rounds hRounds
  obtain ⟨rounds, rfl⟩ := Nat.exists_eq_succ_of_ne_zero (Nat.ne_zero_of_lt hRounds)
  rw [List.length_append] at hRounds
  rw [List.append_assoc]
  exact h rounds (hLater rounds (by omega))

end Loops

section Chunks

variable {α : Type} {length? : Head → Option (Option Nat)} {chunk : Nat → Nat → Decoder (List α)}

theorem takesToStop_takeChunks_nil :
    TakesToStop (fun rounds => takeChunks length? chunk rounds 1) [] [] := by
  refine .start fun rounds input more hInput => ?_
  rw [takeChunks]
  refine (takes_stopByte input more hInput).bind fun rest hRest => ?_
  exact hRest.leaves []

/-- A chunk is its head and its content, and the other chunks come after it. -/
theorem takesToStop_takeChunks_cons {head : Head} {length : Nat}
    {headBytes bytes later : List UInt8} {here others : List α}
    (hPositive : 0 < headBytes.length) (hHead : Takes takeHead headBytes head)
    (hLength : length? head = some (some length)) (hStop : head ≠ .stop)
    (hHere : ∀ offset, Takes (chunk offset length) bytes here)
    (hOthers : TakesToStop (fun rounds => takeChunks length? chunk rounds 1) later others) :
    TakesToStop (fun rounds => takeChunks length? chunk rounds 1) (headBytes ++ bytes ++ later)
      (here ++ others) := by
  have hFirst : 0 < (headBytes ++ bytes).length := by
    rw [List.length_append]
    exact Nat.add_pos_left hPositive _
  refine .round hFirst hOthers fun rounds hOthers input more hInput => ?_
  rw [List.append_assoc, List.append_assoc] at hInput
  rw [takeChunks]
  refine (hHead input _ hInput).bind fun rest hRest => ?_
  dsimp only
  rw [if_neg hStop, hLength]
  dsimp only
  refine (hHere _ rest _ hRest).bind fun rest hRest => ?_
  refine (hOthers rest more hRest).bind fun rest hRest => ?_
  exact hRest.leaves _

theorem EncodesByteChunks.takes {content bytes : List UInt8} (h : EncodesByteChunks content bytes) :
    TakesToStop (fun rounds => takeChunks Head.bytesLength? (fun _ => takeBytes) rounds 1) bytes
      content := by
  induction h with
  | nil => exact takesToStop_takeChunks_nil
  | cons hHead _ ih =>
      have hBytes := hHead.takes_length (by omega) fun _ => rfl
      exact takesToStop_takeChunks_cons hHead.length_pos hBytes rfl (by simp)
        (fun _ => takes_takeBytes rfl) ih

theorem EncodesTextChunks.takes {content : List Char} {bytes : List UInt8}
    (h : EncodesTextChunks content bytes) :
    TakesToStop (fun rounds => takeChunks Head.textLength?
      (fun offset length => takeTextPieces offset length [] length) rounds 1) bytes content := by
  induction h with
  | nil => exact takesToStop_takeChunks_nil
  | cons hHead _ ih =>
      have hText := hHead.takes_length (by omega) fun _ => rfl
      exact takesToStop_takeChunks_cons hHead.length_pos hText rfl (by simp)
        (fun offset => takes_takeTextPieces_encode offset _) ih

end Chunks

end CborPath
