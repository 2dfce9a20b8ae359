import CborPath.Cbor.Decode

/-!
# Decoding abreast

A decoder takes its bytes from the front and looks at nothing else.  On an input that ends and on one
that goes on where the first ends it therefore does the same, until it needs a byte that the first
input does not have.  Either both runs give the same result, and what is left of the one input again
goes on as what is left of the other; or both find the same fault in the bytes; or the first run
comes to the end of its input.

The loops of the decoder are bounded by the number of bytes.  Every round takes a byte, so that
neither run comes to its bound.
-/

namespace CborPath

/-- What an input has beyond the end of another: more bytes, and then an ending of its own. -/
structure Sequel where
  more : List UInt8
  ending : Ending

namespace Sequel

/-- Whether an input has the bytes of one that ends, and then the sequel.  How the bytes are delivered
does not matter. -/
structure Continues (sequel : Sequel) (input longer : Input) : Prop where
  bytes_eq : longer.bytes = input.bytes ++ sequel.more
  taken_eq : longer.taken = input.taken
  ends : input.ending = .endOfInput
  ending_eq : longer.ending = sequel.ending

end Sequel

/-- Whether an error tells where the input ends, and not what is wrong with its bytes. -/
def DecodeError.isOfEnding : DecodeError → Bool
  | endOfInput => true
  | inputFailure _ => true
  | _ => false

/-- Whether the outcomes of two runs belong together, the first on an input that ends and the second
on one that goes on.  If there are results, fewer bytes than `limit` are left of the first input. -/
inductive Sequel.Abreast {α : Type} (sequel : Sequel) (limit : Nat) :
    Except DecodeError (α × Input) → Except DecodeError (α × Input) → Prop
  | result {x : α} {rest longer : Input} :
      sequel.Continues rest longer → rest.bytes.length < limit →
        Abreast sequel limit (.ok (x, rest)) (.ok (x, longer))
  | fault {e : DecodeError} :
      e.isOfEnding = false → Abreast sequel limit (.error e) (.error e)
  | shortage {outcome : Except DecodeError (α × Input)} :
      (sequel.more = [] → outcome = .error (.ofEnding sequel.ending)) →
        Abreast sequel limit (.error .endOfInput) outcome

/-- Whether two decoders run abreast on inputs of fewer bytes than a bound, and leave fewer bytes than
the input was known to have. -/
def Sequel.RunAbreast {α : Type} (sequel : Sequel) (bound : Nat) (d d' : Decoder α) : Prop :=
  ∀ limit ≤ bound, ∀ input longer, sequel.Continues input longer → input.bytes.length < limit →
    sequel.Abreast limit (d input) (d' longer)

namespace Sequel

variable {sequel : Sequel} {α β : Type} {bound limit : Nat}

section Abreast

variable {outcome outcome' : Except DecodeError (α × Input)}

theorem Abreast.mono {limit' : Nat} (h : sequel.Abreast limit outcome outcome')
    (hLe : limit ≤ limit') :
    sequel.Abreast limit' outcome outcome' := by
  cases h with
  | result hContinues hLimit => exact .result hContinues (Nat.lt_of_lt_of_le hLimit hLe)
  | fault hFault => exact .fault hFault
  | shortage hShort => exact .shortage hShort

/-- Runs stay abreast if they go on abreast from every result. -/
theorem Abreast.bind {limit' : Nat} {next next' : α × Input → Except DecodeError (β × Input)}
    (h : sequel.Abreast limit outcome outcome')
    (hNext : ∀ x rest longer, sequel.Continues rest longer → rest.bytes.length < limit →
      sequel.Abreast limit' (next (x, rest)) (next' (x, longer))) :
    sequel.Abreast limit' (outcome >>= next) (outcome' >>= next') := by
  cases h with
  | result hContinues hLimit => exact hNext _ _ _ hContinues hLimit
  | fault hFault => exact .fault hFault
  | shortage hShort =>
      refine .shortage fun hMore => ?_
      rw [hShort hMore]
      rfl

end Abreast

theorem RunAbreast.of_le {less : Nat} {d d' : Decoder α} (h : sequel.RunAbreast bound d d')
    (hLe : less ≤ bound) :
    sequel.RunAbreast less d d' :=
  fun limit hLimit => h limit (Nat.le_trans hLimit hLe)

section Heads

variable {input longer : Input} (h : sequel.Continues input longer)
include h

/-- Taking bytes leaves as many fewer. -/
theorem Continues.takeBytes {count : Nat} (hLimit : input.bytes.length < limit + count) :
    sequel.Abreast limit (takeBytes count input) (takeBytes count longer) := by
  have hLength : longer.bytes.length = input.bytes.length + sequel.more.length := by
    rw [h.bytes_eq, List.length_append]
  rw [CborPath.takeBytes, CborPath.takeBytes]
  cases hTake : input.take count with
  | error e =>
      obtain ⟨hShort, hEnding⟩ := Input.take_eq_error_iff.1 hTake
      rw [← hEnding, h.ends]
      refine .shortage fun hMore => ?_
      rw [hMore, List.length_nil] at hLength
      have hLonger : longer.take count = .error sequel.ending :=
        Input.take_eq_error_iff.2 ⟨by omega, h.ending_eq⟩
      rw [hLonger]
      rfl
  | ok taken =>
      obtain ⟨bytes, rest⟩ := taken
      obtain ⟨hBytes, hCount, hEnding, hTaken⟩ := Input.bytes_take hTake
      rw [hBytes, List.length_append] at hLimit hLength
      cases hTake' : longer.take count with
      | error e =>
          obtain ⟨hShort, -⟩ := Input.take_eq_error_iff.1 hTake'
          omega
      | ok taken' =>
          obtain ⟨bytes', rest'⟩ := taken'
          obtain ⟨hBytes', hCount', hEnding', hTaken'⟩ := Input.bytes_take hTake'
          have hJoined : bytes' ++ rest'.bytes = bytes ++ (rest.bytes ++ sequel.more) := by
            rw [← hBytes', h.bytes_eq, hBytes, List.append_assoc]
          obtain ⟨rfl, hRest⟩ := List.append_inj hJoined (by omega)
          refine .result ⟨hRest, ?_, ?_, ?_⟩ (by omega)
          · rw [hTaken', hTaken, h.taken_eq]
          · rw [hEnding, h.ends]
          · rw [hEnding', h.ending_eq]

theorem Continues.takeArgument (hLimit : input.bytes.length < limit) (offset info : Nat) :
    sequel.Abreast limit (takeArgument offset info input) (takeArgument offset info longer) := by
  rw [CborPath.takeArgument, CborPath.takeArgument]
  split
  · exact .result h hLimit
  · split
    · refine (h.takeBytes (Nat.lt_add_right _ hLimit)).bind fun bytes rest longer hRest hLimit => ?_
      exact .result hRest hLimit
    · split
      · exact .result h hLimit
      · exact .fault rfl

/-- A head takes at least one byte. -/
theorem Continues.takeHead (hLimit : input.bytes.length < limit + 1) :
    sequel.Abreast limit (takeHead input) (takeHead longer) := by
  rw [CborPath.takeHead, CborPath.takeHead, h.taken_eq]
  refine (h.takeBytes hLimit).bind fun bytes rest longer hRest hLimit => ?_
  refine (hRest.takeArgument hLimit _ _).bind fun argument rest longer hRest hLimit => ?_
  dsimp only
  split
  · exact .result hRest hLimit
  · exact .fault rfl

/-- What goes on after a head has fewer bytes to go. -/
theorem Continues.takeHead_bind {next next' : Head × Input → Except DecodeError (α × Input)}
    (hBound : limit ≤ bound + 1) (hLimit : input.bytes.length < limit)
    (hNext : ∀ less ≤ bound, ∀ head rest longer, sequel.Continues rest longer →
      rest.bytes.length < less → sequel.Abreast less (next (head, rest)) (next' (head, longer))) :
    sequel.Abreast limit (CborPath.takeHead input >>= next)
      (CborPath.takeHead longer >>= next') := by
  obtain ⟨less, rfl⟩ : ∃ less, limit = less + 1 := ⟨limit - 1, by omega⟩
  refine Abreast.mono ?_ (Nat.le_succ less)
  exact (h.takeHead hLimit).bind (hNext less (Nat.le_of_succ_le_succ hBound))

end Heads

section Strings

theorem runAbreast_takeBytes (count : Nat) :
    sequel.RunAbreast bound (takeBytes count) (takeBytes count) :=
  fun _ _ _ _ h hLimit => h.takeBytes (Nat.lt_add_right count hLimit)

/-- What is decided from the bytes that were taken, without taking more. -/
theorem Continues.result_or_fault {input longer : Input} (h : sequel.Continues input longer)
    (hLimit : input.bytes.length < limit) (fits : Bool) (x : α) (offset : Nat) :
    sequel.Abreast limit (if fits then .ok (x, input) else .error (.malformed offset))
      (if fits then .ok (x, longer) else .error (.malformed offset)) := by
  split
  · exact .result h hLimit
  · exact .fault rfl

theorem runAbreast_takeTextPieces (offset pieces : Nat) (saved : List UInt8) (unread : Nat) :
    sequel.RunAbreast bound (takeTextPieces offset pieces saved unread)
      (takeTextPieces offset pieces saved unread) := by
  intro limit _ input longer h hLimit
  induction pieces generalizing saved unread input longer with
  | zero => exact h.result_or_fault hLimit _ _ _
  | succ pieces ih =>
      rw [takeTextPieces, takeTextPieces]
      split
      · exact h.result_or_fault hLimit _ _ _
      · refine (h.takeBytes (Nat.lt_add_right _ hLimit)).bind
          fun fresh rest longer hRest hLimit => ?_
        dsimp only
        split
        · exact .fault rfl
        · refine (ih _ _ rest longer hRest hLimit).bind fun others rest longer hRest hLimit => ?_
          exact .result hRest hLimit

theorem runAbreast_takeText (offset length : Nat) :
    sequel.RunAbreast bound (takeText offset length) (takeText offset length) := by
  intro limit hBound input longer h hLimit
  rw [takeText, takeText]
  split
  · refine (runAbreast_takeBytes length limit hBound input longer h hLimit).bind
      fun bytes rest longer hRest hLimit => ?_
    dsimp only
    split
    · exact .result hRest hLimit
    · exact .fault rfl
  · exact runAbreast_takeTextPieces offset length [] length limit hBound input longer h hLimit

/-- Chunks are counted by their heads, so that neither run comes to its bound. -/
theorem runAbreast_takeChunks (length? : Head → Option (Option Nat))
    {chunk : Nat → Nat → Decoder (List α)}
    (hChunk : ∀ offset length bound, sequel.RunAbreast bound (chunk offset length)
      (chunk offset length)) (depth : Nat) :
    sequel.RunAbreast bound (takeChunks length? chunk bound depth)
      (takeChunks length? chunk (bound + sequel.more.length) depth) := by
  intro limit hBound input longer h hLimit
  induction bound generalizing limit depth input longer with
  | zero => omega
  | succ bound ih =>
      rw [Nat.add_right_comm, takeChunks, takeChunks]
      refine h.takeHead_bind hBound hLimit fun limit hBound head rest longer' hRest hLimit' => ?_
      have hLater := fun depth => ih depth limit hBound rest longer' hRest hLimit'
      dsimp only
      split
      · split
        · exact .result hRest hLimit'
        · exact hLater (depth - 1)
      · split
        · rw [h.taken_eq]
          exact .fault rfl
        · exact hLater (depth + 1)
        · rename_i length _
          rw [h.taken_eq]
          refine (hChunk input.taken length limit limit (Nat.le_refl _) rest longer' hRest
            hLimit').bind fun here rest longer hRest hLimit => ?_
          refine (ih depth limit hBound rest longer hRest hLimit).bind
            fun others rest longer hRest hLimit => ?_
          exact .result hRest hLimit

theorem runAbreast_takeByteString (length : Option Nat) :
    sequel.RunAbreast bound (takeByteString bound length)
      (takeByteString (bound + sequel.more.length) length) := by
  cases length with
  | some length => exact runAbreast_takeBytes length
  | none =>
      exact runAbreast_takeChunks _ (fun _ length _ => runAbreast_takeBytes length) 1

theorem runAbreast_takeTextString (length : Option Nat) :
    sequel.RunAbreast bound (takeTextString bound length)
      (takeTextString (bound + sequel.more.length) length) := by
  intro limit hBound input longer h hLimit
  cases length with
  | some length =>
      rw [takeTextString, takeTextString, h.taken_eq]
      exact runAbreast_takeText _ length limit hBound input longer h hLimit
  | none =>
      exact runAbreast_takeChunks _
        (fun offset length _ => runAbreast_takeTextPieces offset length [] length) 1 limit hBound
        input longer h hLimit

end Strings

section Items

theorem runAbreast_items {item item' : Decoder Value} (hItem : sequel.RunAbreast bound item item')
    (count : Nat) :
    sequel.RunAbreast bound (items item count) (items item' count) := by
  intro limit hBound input longer h hLimit
  induction count generalizing input longer with
  | zero => exact .result h hLimit
  | succ count ih =>
      rw [items, items]
      refine (hItem limit hBound input longer h hLimit).bind fun value rest longer hRest hLimit => ?_
      refine (ih rest longer hRest hLimit).bind fun others rest longer hRest hLimit => ?_
      exact .result hRest hLimit

theorem runAbreast_entries {item item' : Decoder Value}
    (hItem : sequel.RunAbreast bound item item') (count : Nat) :
    sequel.RunAbreast bound (entries item count) (entries item' count) := by
  intro limit hBound input longer h hLimit
  induction count generalizing input longer with
  | zero => exact .result h hLimit
  | succ count ih =>
      rw [entries, entries]
      refine (hItem limit hBound input longer h hLimit).bind fun key rest longer hRest hLimit => ?_
      refine (hItem limit hBound rest longer hRest hLimit).bind
        fun value rest longer hRest hLimit => ?_
      refine (ih rest longer hRest hLimit).bind fun others rest longer hRest hLimit => ?_
      exact .result hRest hLimit

variable {continuation continuation' : Continuation}
  (hContinuation : ∀ head, sequel.RunAbreast bound (continuation head) (continuation' head))
include hContinuation

theorem runAbreast_itemOf :
    sequel.RunAbreast bound (itemOf continuation) (itemOf continuation') := by
  intro limit hBound input longer h hLimit
  rw [itemOf, itemOf]
  refine (h.takeHead (Nat.lt_succ_of_lt hLimit)).bind fun head rest longer hRest hLimit => ?_
  exact hContinuation head limit hBound rest longer hRest hLimit

theorem runAbreast_itemsToStop :
    sequel.RunAbreast bound (itemsToStop continuation bound)
      (itemsToStop continuation' (bound + sequel.more.length)) := by
  intro limit hBound input longer h hLimit
  induction bound generalizing limit input longer with
  | zero => omega
  | succ bound ih =>
      rw [Nat.add_right_comm, itemsToStop, itemsToStop]
      refine h.takeHead_bind hBound hLimit fun limit hBound head rest longer hRest hLimit => ?_
      dsimp only
      split
      · exact .result hRest hLimit
      · refine (hContinuation head limit (Nat.le_succ_of_le hBound) rest longer hRest hLimit).bind
          fun value rest longer hRest hLimit => ?_
        refine (ih (fun head => (hContinuation head).of_le (Nat.le_succ bound)) limit hBound rest
          longer hRest hLimit).bind fun others rest longer hRest hLimit => ?_
        exact .result hRest hLimit

theorem runAbreast_entriesToStop :
    sequel.RunAbreast bound (entriesToStop continuation bound)
      (entriesToStop continuation' (bound + sequel.more.length)) := by
  intro limit hBound input longer h hLimit
  induction bound generalizing limit input longer with
  | zero => omega
  | succ bound ih =>
      rw [Nat.add_right_comm, entriesToStop, entriesToStop]
      refine h.takeHead_bind hBound hLimit fun limit hBound head rest longer hRest hLimit => ?_
      dsimp only
      split
      · exact .result hRest hLimit
      · refine (hContinuation head limit (Nat.le_succ_of_le hBound) rest longer hRest hLimit).bind
          fun key rest longer hRest hLimit => ?_
        refine (runAbreast_itemOf hContinuation limit (Nat.le_succ_of_le hBound) rest longer hRest
          hLimit).bind fun value rest longer hRest hLimit => ?_
        refine (ih (fun head => (hContinuation head).of_le (Nat.le_succ bound)) limit hBound rest
          longer hRest hLimit).bind fun others rest longer hRest hLimit => ?_
        exact .result hRest hLimit

end Items

section Content

/-- What a simple value means shows in its number. -/
theorem isOfEnding_of_simpleValue_eq_error {n : Nat} {e : DecodeError}
    (h : simpleValue n = .error e) :
    e.isOfEnding = false := by
  unfold simpleValue at h
  split at h
  · cases h
  · split at h
    · cases h
    · split at h <;> cases h
      rfl

theorem isOfEnding_of_bigInteger_eq_error {negative : Bool} {bytes : List UInt8} {e : DecodeError}
    (h : bigInteger negative bytes = .error e) :
    e.isOfEnding = false := by
  unfold bigInteger at h
  dsimp only at h
  split at h
  · cases h
    rfl
  · split at h <;> cases h

/-- A value that is found without taking bytes, or a fault in those that were taken. -/
theorem Continues.value_or_fault {input longer : Input} (h : sequel.Continues input longer)
    (hLimit : input.bytes.length < limit) {outcome : Except DecodeError Value}
    (hFault : ∀ e, outcome = .error e → e.isOfEnding = false) :
    sequel.Abreast limit (outcome >>= fun value => .ok (value, input))
      (outcome >>= fun value => .ok (value, longer)) := by
  cases outcome with
  | ok value => exact .result h hLimit
  | error e => exact .fault (hFault e rfl)

/-- What stands for a nested item beyond the nesting limit, or within it. -/
theorem runAbreast_nested {nested nested' : Option Continuation}
    (hNested : Option.Rel
      (fun c c' => ∀ head, sequel.RunAbreast bound (c head) (c' head)) nested nested')
    (head : Head) :
    sequel.RunAbreast bound (nested.getD beyondLimit head) (nested'.getD beyondLimit head) := by
  cases hNested with
  | none => exact fun _ _ _ _ _ _ => .fault rfl
  | some hContinuation => exact hContinuation head

theorem runAbreast_content {nested nested' : Option Continuation}
    (hNested : Option.Rel
      (fun c c' => ∀ head, sequel.RunAbreast bound (c head) (c' head)) nested nested')
    (head : Head) :
    sequel.RunAbreast bound (content bound nested head)
      (content (bound + sequel.more.length) nested' head) := by
  intro limit hBound input longer h hLimit
  cases head with
  | unsigned n => exact .result h hLimit
  | negative n => exact .result h hLimit
  | bytes length =>
      rw [content, content]
      refine (runAbreast_takeByteString length limit hBound input longer h hLimit).bind
        fun bytes rest longer hRest hLimit => ?_
      exact .result hRest hLimit
  | text length =>
      rw [content, content]
      refine (runAbreast_takeTextString length limit hBound input longer h hLimit).bind
        fun cs rest longer hRest hLimit => ?_
      exact .result hRest hLimit
  | simple n =>
      rw [content, content]
      exact h.value_or_fault hLimit fun e hError => isOfEnding_of_simpleValue_eq_error hError
  | float x => exact .result h hLimit
  | stop => exact .fault rfl
  | array length =>
      cases hNested with
      | none => exact .fault rfl
      | some hContinuation =>
          cases length with
          | some length =>
              rw [content, content]
              refine (runAbreast_items (runAbreast_itemOf hContinuation) length limit hBound input
                longer h hLimit).bind fun values rest longer hRest hLimit => ?_
              exact .result hRest hLimit
          | none =>
              rw [content, content]
              refine (runAbreast_itemsToStop hContinuation limit hBound input longer h hLimit).bind
                fun values rest longer hRest hLimit => ?_
              exact .result hRest hLimit
  | map length =>
      cases hNested with
      | none => exact .fault rfl
      | some hContinuation =>
          cases length with
          | some length =>
              rw [content, content]
              refine (runAbreast_entries (runAbreast_itemOf hContinuation) length limit hBound input
                longer h hLimit).bind fun pairs rest longer hRest hLimit => ?_
              exact .result hRest hLimit
          | none =>
              rw [content, content]
              refine (runAbreast_entriesToStop hContinuation limit hBound input longer h
                hLimit).bind fun pairs rest longer hRest hLimit => ?_
              exact .result hRest hLimit
  | tag n =>
      rw [content, content]
      refine (h.takeHead (Nat.lt_succ_of_lt hLimit)).bind fun inner rest longer hRest hLimit => ?_
      dsimp only
      split
      · rename_i length _
        refine (runAbreast_takeBytes length limit hBound rest longer hRest hLimit).bind
          fun bytes rest longer hRest hLimit => ?_
        exact hRest.value_or_fault hLimit fun e hError => isOfEnding_of_bigInteger_eq_error hError
      · exact runAbreast_nested hNested inner limit hBound rest longer hRest hLimit

/-- Items are decoded abreast, however many levels of nesting are allowed. -/
theorem runAbreast_itemAt (levels : Nat) (head : Head) :
    sequel.RunAbreast bound (itemAt bound levels head)
      (itemAt (bound + sequel.more.length) levels head) := by
  induction levels generalizing head with
  | zero =>
      intro limit hBound input longer h hLimit
      rw [itemAt, itemAt]
      exact runAbreast_content .none head limit hBound input longer h hLimit
  | succ levels ih =>
      intro limit hBound input longer h hLimit
      rw [itemAt, itemAt]
      exact runAbreast_content (.some ih) head limit hBound input longer h hLimit

end Content

end Sequel

end CborPath
