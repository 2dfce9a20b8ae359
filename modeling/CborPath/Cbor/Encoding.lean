import CborPath.Document.Value

/-!
# Encodings

The byte strings that write a document as a CBOR item.  A document has many encodings: the argument
of a head may be written in any width that holds it, strings, arrays and maps may be of known or of
open length, and tags may stand before any item.  `Encodes levels value bytes` says that `bytes` is
one of them, with arrays, maps and tags nested at most `levels` deep.

Tags for big integers are left out, since they change what an item means.
-/

namespace CborPath

/-- A natural number as the given number of bytes, the most significant first. -/
def bytesOfNatural : Nat → Nat → List UInt8
  | 0, _ => []
  | width + 1, n => bytesOfNatural width (n / 256) ++ [UInt8.ofNat (n % 256)]

theorem length_bytesOfNatural (width n : Nat) :
    (bytesOfNatural width n).length = width := by
  induction width generalizing n with
  | zero => rfl
  | succ width ih => simp [bytesOfNatural, ih]

/-- The heads of a major type with an argument: in the first byte itself, or in one, two, four or
eight bytes after it. -/
inductive EncodesHead (major argument : Nat) : List UInt8 → Prop
  | immediate (small : argument < 24) :
      EncodesHead major argument [UInt8.ofNat (32 * major + argument)]
  | following (power : Nat) (known : power < 4) (fits : argument < Nat.pow 256 (Nat.pow 2 power)) :
      EncodesHead major argument
        (UInt8.ofNat (32 * major + 24 + power) :: bytesOfNatural (Nat.pow 2 power) argument)

/-- The head of a major type whose length is left open. -/
def openHead (major : Nat) : UInt8 :=
  UInt8.ofNat (32 * major + 31)

/-- The byte that ends an item of open length. -/
def stopByte : UInt8 := 0xFF

/-- The chunks of a byte string of open length. -/
inductive EncodesByteChunks : List UInt8 → List UInt8 → Prop
  | nil : EncodesByteChunks [] []
  | cons {chunk others head bytes : List UInt8} (here : EncodesHead 2 chunk.length head)
      (rest : EncodesByteChunks others bytes) :
      EncodesByteChunks (chunk ++ others) (head ++ chunk ++ bytes)

/-- The chunks of a text of open length.  No character is split between chunks. -/
inductive EncodesTextChunks : List Char → List UInt8 → Prop
  | nil : EncodesTextChunks [] []
  | cons {chunk others : List Char} {head bytes : List UInt8}
      (here : EncodesHead 3 (Utf8.encode chunk).length head)
      (rest : EncodesTextChunks others bytes) :
      EncodesTextChunks (chunk ++ others) (head ++ Utf8.encode chunk ++ bytes)

/-- The 64 bits that write a number: the sign, and then the position of its magnitude, which is the exponent
followed by the fraction.  An exponent of ones only is kept for infinities, and with any fraction but zero
for not-a-number. -/
inductive EncodesNumber : Binary64 → Nat → Prop
  | finite (negative : Bool) (position : Fin Binary64.finiteCount) :
      EncodesNumber (.finite negative position) (negative.toNat * Nat.pow 2 63 + position)
  | infinite (negative : Bool) :
      EncodesNumber (.infinite negative) (negative.toNat * Nat.pow 2 63 + 2047 * Nat.pow 2 52)
  | nan {bits : Nat} (fits : bits < Nat.pow 2 64) (exponent : bits / Nat.pow 2 52 % 2048 = 2047)
      (fraction : bits % Nat.pow 2 52 ≠ 0) :
      EncodesNumber .nan bits

mutual

/-- The encodings of a value with at most the given number of levels of nesting. -/
inductive Encodes : Nat → Value → List UInt8 → Prop
  | null {levels : Nat} : Encodes levels (.scalar .null) [0xF6]
  | undefined {levels : Nat} : Encodes levels (.scalar .null) [0xF7]
  | no {levels : Nat} : Encodes levels (.scalar (.boolean false)) [0xF4]
  | yes {levels : Nat} : Encodes levels (.scalar (.boolean true)) [0xF5]
  | unsigned {levels n : Nat} {head : List UInt8} (here : EncodesHead 0 n head) :
      Encodes levels (.scalar (.integer n)) head
  | negative {levels n : Nat} {head : List UInt8} (here : EncodesHead 1 n head) :
      Encodes levels (.scalar (.integer (-1 - n))) head
  | float {levels bits : Nat} {x : Binary64} (here : EncodesNumber x bits) :
      Encodes levels (.scalar (.float x)) (0xFB :: bytesOfNatural 8 bits)
  | bytes {levels : Nat} {content head : List UInt8} (here : EncodesHead 2 content.length head) :
      Encodes levels (.scalar (.bytes content)) (head ++ content)
  | chunkedBytes {levels : Nat} {content bytes : List UInt8}
      (chunks : EncodesByteChunks content bytes) :
      Encodes levels (.scalar (.bytes content)) (openHead 2 :: (bytes ++ [stopByte]))
  | text {levels : Nat} {content : List Char} {head : List UInt8}
      (here : EncodesHead 3 (Utf8.encode content).length head) :
      Encodes levels (.scalar (.text (String.ofList content))) (head ++ Utf8.encode content)
  | chunkedText {levels : Nat} {content : List Char} {bytes : List UInt8}
      (chunks : EncodesTextChunks content bytes) :
      Encodes levels (.scalar (.text (String.ofList content)))
        (openHead 3 :: (bytes ++ [stopByte]))
  | sequence {levels : Nat} {items : List Value} {head bytes : List UInt8}
      (here : EncodesHead 4 items.length head) (within : EncodesItems levels items bytes) :
      Encodes (levels + 1) (.sequence items) (head ++ bytes)
  | openSequence {levels : Nat} {items : List Value} {bytes : List UInt8}
      (within : EncodesItems levels items bytes) :
      Encodes (levels + 1) (.sequence items) (openHead 4 :: (bytes ++ [stopByte]))
  | mapping {levels : Nat} {entries : List (Value × Value)} {head bytes : List UInt8}
      (here : EncodesHead 5 entries.length head) (within : EncodesEntries levels entries bytes) :
      Encodes (levels + 1) (.mapping entries) (head ++ bytes)
  | openMapping {levels : Nat} {entries : List (Value × Value)} {bytes : List UInt8}
      (within : EncodesEntries levels entries bytes) :
      Encodes (levels + 1) (.mapping entries) (openHead 5 :: (bytes ++ [stopByte]))
  | tagged {levels tag : Nat} {value : Value} {head bytes : List UInt8}
      (here : EncodesHead 6 tag head) (plain : tag ≠ 2 ∧ tag ≠ 3)
      (within : Encodes levels value bytes) :
      Encodes (levels + 1) value (head ++ bytes)

/-- The encodings of items one after the other. -/
inductive EncodesItems : Nat → List Value → List UInt8 → Prop
  | nil {levels : Nat} : EncodesItems levels [] []
  | cons {levels : Nat} {item : Value} {items : List Value} {here others : List UInt8}
      (first : Encodes levels item here) (rest : EncodesItems levels items others) :
      EncodesItems levels (item :: items) (here ++ others)

/-- The encodings of entries one after the other, each key before its value. -/
inductive EncodesEntries : Nat → List (Value × Value) → List UInt8 → Prop
  | nil {levels : Nat} : EncodesEntries levels [] []
  | cons {levels : Nat} {key value : Value} {entries : List (Value × Value)}
      {keyBytes valueBytes others : List UInt8}
      (first : Encodes levels key keyBytes) (second : Encodes levels value valueBytes)
      (rest : EncodesEntries levels entries others) :
      EncodesEntries levels ((key, value) :: entries) (keyBytes ++ valueBytes ++ others)

end

end CborPath
