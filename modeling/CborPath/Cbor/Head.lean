import CborPath.Cbor.Input
import CborPath.Number.Binary64

/-!
# Heads

Every CBOR item begins with a head: one byte that holds the major type and some additional
information, and up to eight bytes of argument.  Arguments need not be written in the shortest
form.
-/

namespace CborPath

/-- Why bytes are not a document.  Offsets count bytes from the start of the input. -/
inductive DecodeError
  | endOfInput
  | inputFailure (message : String)
  | malformed (offset : Nat)
  | nestedTooDeeply
  | unexpectedBreak
  | unknownSimple
  | integerTooLarge
  | trailingData
  deriving DecidableEq, Repr

namespace DecodeError

/-- The error that the ending of an input is to a reader that needs more bytes. -/
def ofEnding : Ending → DecodeError
  | .endOfInput => endOfInput
  | .failure message => inputFailure message

/-- What is wrong with the bytes. -/
def detail : DecodeError → String
  | endOfInput => "unexpected end of input"
  | inputFailure message => message
  | malformed offset => "Syntax(" ++ toString offset ++ ")"
  | nestedTooDeeply => "RecursionLimitExceeded"
  | unexpectedBreak => "Semantic(None, \"invalid type: break, expected non-break\")"
  | unknownSimple => "Semantic(None, \"invalid type: simple, expected known simple value\")"
  | integerTooLarge => "Semantic(None, \"integer too large\")"
  | trailingData => "trailing data after CBOR item"

/-- The wording of a decoding error. -/
def message : DecodeError → String
  | inputFailure message => "I/O error: " ++ message
  | e => "CBOR decode error: " ++ e.detail

end DecodeError

/-- A decoder takes something off the start of an input. -/
abbrev Decoder (α : Type) := Input → Except DecodeError (α × Input)

/-- Takes an exact number of bytes. -/
def takeBytes (count : Nat) : Decoder (List UInt8) :=
  fun input => (input.take count).mapError DecodeError.ofEnding

/-- The natural number that bytes spell, the most significant first. -/
def naturalOfBytes (bytes : List UInt8) : Nat :=
  bytes.foldl (fun n byte => n * 256 + byte.toNat) 0

/-- What an item begins with.  A length that is left open is `none`. -/
inductive Head
  | unsigned (n : Nat)
  | negative (n : Nat)
  | bytes (length : Option Nat)
  | text (length : Option Nat)
  | array (length : Option Nat)
  | map (length : Option Nat)
  | tag (n : Nat)
  | simple (n : Nat)
  | float (x : Binary64)
  | stop
  deriving DecidableEq, Repr

/-- The argument of a head. -/
inductive Argument
  | immediate (n : Nat)
  | following (width : Nat) (n : Nat)
  | openEnded
  deriving DecidableEq, Repr

/-- The number that an argument gives, unless it is left open. -/
def Argument.number? : Argument → Option Nat
  | immediate n => some n
  | following _ n => some n
  | openEnded => none

/-- Takes off the argument that the additional information of a head at `offset` announces. -/
def takeArgument (offset info : Nat) : Decoder Argument :=
  fun input =>
    if info < 24 then .ok (.immediate info, input)
    else if info < 28 then do
      let width := Nat.pow 2 (info - 24)
      let (bytes, rest) ← takeBytes width input
      return (.following width (naturalOfBytes bytes), rest)
    else if info = 31 then .ok (.openEnded, input)
    else .error (.malformed offset)

/-- The head of a major type with an argument.  Only strings, arrays and maps can be left open; for
the last major type that means the break. -/
def Head.of? : Nat → Argument → Option Head
  | 0, argument => argument.number?.map unsigned
  | 1, argument => argument.number?.map negative
  | 2, argument => some (bytes argument.number?)
  | 3, argument => some (text argument.number?)
  | 4, argument => some (array argument.number?)
  | 5, argument => some (map argument.number?)
  | 6, argument => argument.number?.map tag
  | _, .immediate n => some (simple n)
  | _, .following 1 n => some (simple n)
  | _, .following 2 n => some (float (Binary64.ofInterchange 5 10 n))
  | _, .following 4 n => some (float (Binary64.ofInterchange 8 23 n))
  | _, .following _ n => some (float (Binary64.ofBits n))
  | _, .openEnded => some stop

/-- Takes off a head. -/
def takeHead : Decoder Head :=
  fun input => do
    let (bytes, rest) ← takeBytes 1 input
    let byte := naturalOfBytes bytes
    let (argument, rest) ← takeArgument input.taken (byte % 32) rest
    match Head.of? (byte / 32) argument with
    | some head => return (head, rest)
    | none => .error (.malformed input.taken)

/-- The number of bytes of the shortest head with an argument. -/
def shortestHeadLength (n : Nat) : Nat :=
  if n < 24 then 1
  else if n < Nat.pow 2 8 then 2
  else if n < Nat.pow 2 16 then 3
  else if n < Nat.pow 2 32 then 5
  else 9

end CborPath
