import CborPath.Text.Alphabetic
import CborPath.Text.Numeric

/-!
# Character classes

The classes of characters that the query language distinguishes: white space, letters and digits in
the sense of Unicode.  ASCII characters are decided directly, all others by the tables of ranges.
-/

namespace CborPath

namespace Text

/-- Whether a code point lies in one of the closed ranges. -/
def inRanges (code : Nat) (ranges : List (Nat × Nat)) : Bool :=
  ranges.any fun range => range.1 ≤ code && code ≤ range.2

/-- The Unicode property White_Space. -/
def isSpace (c : Char) : Bool :=
  let code := c.toNat
  (9 ≤ code && code ≤ 13) || code = 0x20 || code = 0x85 || code = 0xA0 || code = 0x1680 ||
    (0x2000 ≤ code && code ≤ 0x200A) || code = 0x2028 || code = 0x2029 || code = 0x202F ||
    code = 0x205F || code = 0x3000

/-- The Unicode property Alphabetic. -/
def isAlphabetic (c : Char) : Bool :=
  if c.toNat < 128 then c.isAlpha else inRanges c.toNat alphabeticRanges

/-- The Unicode general categories Nd, Nl and No. -/
def isNumeric (c : Char) : Bool :=
  if c.toNat < 128 then c.isDigit else inRanges c.toNat numericRanges

/-- The digits of ASCII are numeric. -/
theorem isNumeric_of_isDigit {c : Char} (h : c.isDigit = true) :
    isNumeric c = true := by
  have hCode : c.toNat < 128 := by
    simp [Char.isDigit, UInt32.le_iff_toNat_le] at h
    omega
  simp [isNumeric, hCode, h]

/-- Alphabetic or numeric. -/
def isAlphanumeric (c : Char) : Bool :=
  isAlphabetic c || isNumeric c

/-- The text without the white space at its start. -/
def skipSpace (text : List Char) : List Char :=
  text.dropWhile isSpace

@[simp] theorem skipSpace_nil : skipSpace [] = [] :=
  rfl

/-- Leading white space is skipped. -/
theorem skipSpace_cons_of_isSpace {c : Char} (h : isSpace c = true) (rest : List Char) :
    skipSpace (c :: rest) = skipSpace rest := by
  simp [skipSpace, h]

/-- Where no white space stands, nothing is skipped. -/
theorem skipSpace_cons_of_not_isSpace {c : Char} (h : isSpace c = false) (rest : List Char) :
    skipSpace (c :: rest) = c :: rest := by
  simp [skipSpace, h]

/-- What is left after white space does not start with white space. -/
theorem isSpace_of_skipSpace_eq_cons {text rest : List Char} {c : Char}
    (h : skipSpace text = c :: rest) : isSpace c = false := by
  have hHead := List.head?_dropWhile_not isSpace text
  rw [← skipSpace, h] at hHead
  simpa using hHead

/-- Skipping twice skips no more. -/
@[simp] theorem skipSpace_skipSpace (text : List Char) :
    skipSpace (skipSpace text) = skipSpace text := by
  cases h : skipSpace text with
  | nil => rfl
  | cons c rest => exact skipSpace_cons_of_not_isSpace (isSpace_of_skipSpace_eq_cons h) rest

/-- Only white space is skipped. -/
theorem takeWhile_append_skipSpace (text : List Char) :
    text.takeWhile isSpace ++ skipSpace text = text :=
  List.takeWhile_append_dropWhile

/-- Skipping makes no text longer. -/
theorem length_skipSpace_le (text : List Char) :
    (skipSpace text).length ≤ text.length :=
  (List.dropWhile_suffix isSpace).length_le

/-- The text without the white space at its two ends. -/
def trim (text : List Char) : List Char :=
  (skipSpace (skipSpace text).reverse).reverse

/-- The text cut at every white space character. -/
def pieces : List Char → List (List Char)
  | [] => [[]]
  | c :: rest =>
      if isSpace c then [] :: pieces rest
      else
        match pieces rest with
        | [] => [[c]]
        | piece :: others => (c :: piece) :: others

/-- The maximal runs of characters that are not white space. -/
def words (text : List Char) : List (List Char) :=
  (pieces text).filter fun piece => !piece.isEmpty

/-- The words of a text with single blanks between them. -/
def normalizeSpace (text : List Char) : List Char :=
  List.intercalate [' '] (words text)

/-- The number of bytes of a text in UTF-8. -/
def byteLength (text : List Char) : Nat :=
  (text.map Char.utf8Size).foldr (· + ·) 0

end Text

end CborPath
