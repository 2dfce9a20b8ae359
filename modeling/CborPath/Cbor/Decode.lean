import CborPath.Cbor.Head
import CborPath.Document.Value

/-!
# Decoding

A document is one CBOR item and nothing after it.  Tags are dropped, except that a tag for big
integers directly before a short byte string makes an integer of it, or a byte string without
leading zeros if 64 bits cannot hold it.

Arrays, maps and tags nest up to a limit.  `itemAt` goes on from a head that has been taken off
already; it is a recursion on the nesting that is still allowed, and `content` says what every head
means, given what nested items mean.  The loops over items of open length, and over the chunks of
open strings, are bounded by the number of bytes of the input, since every round takes a byte.

Texts are checked to be UTF-8.  A short text is taken whole and then checked, a longer one in
pieces, so that a piece that cannot be the start of a text shows before the end of the input does.
-/

namespace CborPath

/-- The longest text that is taken whole, and the length of the pieces of longer ones. -/
def pieceLength : Nat := 4096

/-- Takes off what is left of a text: `saved` are the bytes, taken already, of a character that was
cut by the end of the piece before, and `unread` the number of bytes to come.  The bound is at least
`unread`. -/
def takeTextPieces (offset : Nat) : Nat → List UInt8 → Nat → Decoder (List Char)
  | 0, saved, _, input => if saved.isEmpty then .ok ([], input) else .error (.malformed offset)
  | bound + 1, saved, unread, input =>
      if unread = 0 then
        if saved.isEmpty then .ok ([], input) else .error (.malformed offset)
      else do
        let size := min pieceLength (saved.length + unread)
        let (fresh, rest) ← takeBytes (size - saved.length) input
        let (cs, broken) := Utf8.splitValid (saved ++ fresh)
        if 3 < broken.length then .error (.malformed offset)
        else
          let (others, rest) ← takeTextPieces offset bound broken (unread - fresh.length) rest
          return (cs ++ others, rest)

/-- Takes off a text of known length.  An error in it is reported at `offset`. -/
def takeText (offset length : Nat) : Decoder (List Char) :=
  fun input =>
    if length ≤ pieceLength then do
      let (bytes, rest) ← takeBytes length input
      match Utf8.decode? bytes with
      | some cs => return (cs, rest)
      | none => .error (.malformed offset)
    else takeTextPieces offset length [] length input

/-- Takes off the chunks of a string of open length.  `length?` recognizes the heads of chunks, and
`chunk` takes off a chunk given the offset of its head and its length.  Strings of open length may
stand among the chunks; `depth` of them have not ended. -/
def takeChunks {α : Type} (length? : Head → Option (Option Nat))
    (chunk : Nat → Nat → Decoder (List α)) : Nat → Nat → Decoder (List α)
  | 0, _, _ => .error .endOfInput
  | bound + 1, depth, input => do
      let (head, rest) ← takeHead input
      if head = .stop then
        if depth ≤ 1 then return ([], rest)
        else takeChunks length? chunk bound (depth - 1) rest
      else
        match length? head with
        | none => .error (.malformed input.taken)
        | some none => takeChunks length? chunk bound (depth + 1) rest
        | some (some length) => do
            let (here, rest) ← chunk input.taken length rest
            let (others, rest) ← takeChunks length? chunk bound depth rest
            return (here ++ others, rest)

/-- The lengths in heads of byte strings. -/
def Head.bytesLength? : Head → Option (Option Nat)
  | bytes length => some length
  | _ => none

/-- The lengths in heads of texts. -/
def Head.textLength? : Head → Option (Option Nat)
  | text length => some length
  | _ => none

/-- Takes off a byte string. -/
def takeByteString (bound : Nat) : Option Nat → Decoder (List UInt8)
  | some length => takeBytes length
  | none => takeChunks Head.bytesLength? (fun _ => takeBytes) bound 1

/-- Takes off a text whose head has just been taken off.  The reported offset is the one that the
head would have if it were of the shortest form and ended where it does. -/
def takeTextString (bound : Nat) (length : Option Nat) : Decoder (List Char) :=
  fun input =>
    match length with
    | some length => takeText (input.taken - shortestHeadLength length) length input
    | none =>
        takeChunks Head.textLength? (fun offset length => takeTextPieces offset length [] length)
          bound 1 input

/-- Decodes a given number of items. -/
def items (item : Decoder Value) : Nat → Decoder (List Value)
  | 0, input => .ok ([], input)
  | count + 1, input => do
      let (value, rest) ← item input
      let (others, rest) ← items item count rest
      return (value :: others, rest)

/-- Decodes a given number of entries. -/
def entries (item : Decoder Value) : Nat → Decoder (List (Value × Value))
  | 0, input => .ok ([], input)
  | count + 1, input => do
      let (key, rest) ← item input
      let (value, rest) ← item rest
      let (others, rest) ← entries item count rest
      return ((key, value) :: others, rest)

/-- A decoder that goes on after a head. -/
abbrev Continuation := Head → Decoder Value

/-- Decodes an item with a continuation for its head. -/
def itemOf (continuation : Continuation) : Decoder Value :=
  fun input => do
    let (head, rest) ← takeHead input
    continuation head rest

/-- Decodes items up to a break. -/
def itemsToStop (continuation : Continuation) : Nat → Decoder (List Value)
  | 0, _ => .error .endOfInput
  | bound + 1, input => do
      let (head, rest) ← takeHead input
      if head = .stop then return ([], rest)
      else
        let (value, rest) ← continuation head rest
        let (others, rest) ← itemsToStop continuation bound rest
        return (value :: others, rest)

/-- Decodes entries up to a break in the place of a key. -/
def entriesToStop (continuation : Continuation) : Nat → Decoder (List (Value × Value))
  | 0, _ => .error .endOfInput
  | bound + 1, input => do
      let (head, rest) ← takeHead input
      if head = .stop then return ([], rest)
      else
        let (key, rest) ← continuation head rest
        let (value, rest) ← itemOf continuation rest
        let (others, rest) ← entriesToStop continuation bound rest
        return ((key, value) :: others, rest)

/-- The value of a simple value. -/
def simpleValue (n : Nat) : Except DecodeError Value :=
  if n = 20 then .ok (.scalar (.boolean false))
  else if n = 21 then .ok (.scalar (.boolean true))
  else if n = 22 || n = 23 then .ok (.scalar .null)
  else .error .unknownSimple

/-- The value of a big integer, `n` or `-1 - n`, given by its bytes. -/
def bigInteger (negative : Bool) (bytes : List UInt8) : Except DecodeError Value :=
  let n := naturalOfBytes bytes
  if negative && decide (Nat.pow 2 127 ≤ n) then .error .integerTooLarge
  else if n < Nat.pow 2 64 then .ok (.scalar (.integer (if negative then -1 - n else n)))
  else .ok (.scalar (.bytes (bytes.dropWhile (· == 0))))

/-- The most bytes of a big integer. -/
def maxBigIntegerLength : Nat := 16

/-- The number of bytes of the big integer that a tag makes of the item with this head.  It is none
for other tags, for longer byte strings, and for everything else. -/
def Head.bigIntegerLength? (tag : Nat) : Head → Option Nat
  | bytes (some length) =>
      if (tag = 2 || tag = 3) && length ≤ maxBigIntegerLength then some length else none
  | _ => none

/-- The continuation for every head beyond the nesting limit. -/
def beyondLimit : Continuation :=
  fun _ _ => .error .nestedTooDeeply

/-- Decodes what follows a head, given the continuation for nested items; there is none where the
nesting has reached its limit.  Nothing more is read before that shows, except that a tag looks at
the head after it. -/
def content (bound : Nat) (nested : Option Continuation) : Continuation :=
  fun head input =>
    match head with
    | .unsigned n => .ok (.scalar (.integer n), input)
    | .negative n => .ok (.scalar (.integer (-1 - n)), input)
    | .bytes length => do
        let (bytes, rest) ← takeByteString bound length input
        return (.scalar (.bytes bytes), rest)
    | .text length => do
        let (cs, rest) ← takeTextString bound length input
        return (.scalar (.text (String.ofList cs)), rest)
    | .simple n => do
        return (← simpleValue n, input)
    | .float x => .ok (.scalar (.float x), input)
    | .stop => .error .unexpectedBreak
    | .array length =>
        match nested with
        | none => .error .nestedTooDeeply
        | some continuation => do
            let (values, rest) ←
              match length with
              | some length => items (itemOf continuation) length input
              | none => itemsToStop continuation bound input
            return (.sequence values, rest)
    | .map length =>
        match nested with
        | none => .error .nestedTooDeeply
        | some continuation => do
            let (pairs, rest) ←
              match length with
              | some length => entries (itemOf continuation) length input
              | none => entriesToStop continuation bound input
            return (.mapping pairs, rest)
    | .tag n => do
        let (inner, rest) ← takeHead input
        match inner.bigIntegerLength? n with
        | some length => do
            let (bytes, rest) ← takeBytes length rest
            return (← bigInteger (n = 3) bytes, rest)
        | none => nested.getD beyondLimit inner rest

/-- Decodes what follows a head, when the given number of levels of nesting is allowed. -/
def itemAt (bound : Nat) : Nat → Continuation
  | 0, head, input => content bound none head input
  | levels + 1, head, input => content bound (some (itemAt bound levels)) head input

/-- How deep arrays, maps and tags may nest. -/
def maxDocumentNesting : Nat := 256

/-- Decodes an input that holds one item and nothing after it. -/
def decode (input : Input) : Except DecodeError Value := do
  let (value, rest) ← itemOf (itemAt (input.bytes.length + 1) maxDocumentNesting) input
  match rest.take 1 with
  | .ok _ => .error .trailingData
  | .error .endOfInput => return value
  | .error (.failure message) => .error (.inputFailure message)

end CborPath
