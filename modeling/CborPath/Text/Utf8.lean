/-!
# UTF-8

Bytes are read as UTF-8 one character at a time.  Where no character can be read, the longest
sequence of bytes that could have begun one (at least one byte) is passed over as broken.  Strict
reading wants no broken place, lossy reading writes the replacement character for each.
-/

namespace CborPath

namespace Utf8

/-- What a first byte says about its character: the value of its own bits, the least and greatest
second byte, and how many bytes follow. -/
structure Lead where
  bits : Nat
  low : Nat
  high : Nat
  tails : Nat
  deriving DecidableEq, Repr

/-- Reads a first byte.  The ranges of the second byte leave out overlong forms, surrogates and
values beyond the last code point. -/
def lead? (byte : Nat) : Option Lead :=
  if byte < 0x80 then some ⟨byte, 0, 0, 0⟩
  else if byte < 0xC2 then none
  else if byte < 0xE0 then some ⟨byte - 0xC0, 0x80, 0xBF, 1⟩
  else if byte = 0xE0 then some ⟨0, 0xA0, 0xBF, 2⟩
  else if byte = 0xED then some ⟨0xD, 0x80, 0x9F, 2⟩
  else if byte < 0xF0 then some ⟨byte - 0xE0, 0x80, 0xBF, 2⟩
  else if byte = 0xF0 then some ⟨0, 0x90, 0xBF, 3⟩
  else if byte < 0xF4 then some ⟨byte - 0xF0, 0x80, 0xBF, 3⟩
  else if byte = 0xF4 then some ⟨4, 0x80, 0x8F, 3⟩
  else none

/-- Reads the given number of bytes after the first.  The next one must lie between `low` and
`high`, those after it may be any continuation bytes.  Gives the value and the bytes after it, or no
value and the bytes from the first unfit one on. -/
def readTails : Nat → Nat → Nat → Nat → List UInt8 → Option Nat × List UInt8
  | 0, _, _, value, bytes => (some value, bytes)
  | _ + 1, _, _, _, [] => (none, [])
  | count + 1, low, high, value, byte :: bytes =>
      if low ≤ byte.toNat && byte.toNat ≤ high then
        readTails count 0x80 0xBF (value * 64 + (byte.toNat - 0x80)) bytes
      else (none, byte :: bytes)

/-- Reads one character that starts with the given byte, or passes over one broken place. -/
def readChar (byte : UInt8) (bytes : List UInt8) : Option Char × List UInt8 :=
  match lead? byte.toNat with
  | none => (none, bytes)
  | some lead =>
      let (value, rest) := readTails lead.tails lead.low lead.high lead.bits bytes
      (value.map Char.ofNat, rest)

/-- The characters and broken places of at most the given number of bytes. -/
def piecesWithin : Nat → List UInt8 → List (Option Char)
  | 0, _ => []
  | _ + 1, [] => []
  | fuel + 1, byte :: bytes =>
      let (piece, rest) := readChar byte bytes
      piece :: piecesWithin fuel rest

/-- The characters and broken places of a byte string. -/
def pieces (bytes : List UInt8) : List (Option Char) :=
  piecesWithin bytes.length bytes

/-- Lossy reading: every broken place becomes one replacement character. -/
def decodeLossy (bytes : List UInt8) : String :=
  String.ofList ((pieces bytes).map (·.getD '\uFFFD'))

/-- The characters up to the first broken place, and the bytes from there on. -/
def splitValidWithin : Nat → List UInt8 → List Char × List UInt8
  | 0, bytes => ([], bytes)
  | _ + 1, [] => ([], [])
  | fuel + 1, byte :: bytes =>
      match readChar byte bytes with
      | (none, _) => ([], byte :: bytes)
      | (some c, rest) =>
          let (cs, broken) := splitValidWithin fuel rest
          (c :: cs, broken)

/-- The longest start of a byte string that is UTF-8, as characters, and the bytes after it. -/
def splitValid (bytes : List UInt8) : List Char × List UInt8 :=
  splitValidWithin bytes.length bytes

/-- Strict reading: the characters, if there is no broken place. -/
def decode? (bytes : List UInt8) : Option (List Char) :=
  match splitValid bytes with
  | (cs, []) => some cs
  | (_, _ :: _) => none

/-- The bytes of a text. -/
def encode (text : List Char) : List UInt8 :=
  text.flatMap String.utf8EncodeChar

end Utf8

end CborPath
