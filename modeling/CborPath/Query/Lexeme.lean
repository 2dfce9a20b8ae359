import CborPath.Number.Decimal
import CborPath.Query.ParseError
import CborPath.Text.Class

/-!
# Lexemes

The readers for what expressions are written with: single characters, names, words, literals, axes
and node tests.  None of them depends on how expressions nest.

A reader takes something off the start of a text and gives the rest.  The lemmas say for each of
the smallest readers exactly which texts it accepts, and what it makes of them.
-/

namespace CborPath

namespace Parse

open Text (skipSpace)

/-- A failed reading: the cause, and the text from the place where it shows. -/
structure Fault where
  cause : ParseCause
  rest : List Char
  deriving DecidableEq, Repr

/-- A reader takes something off the start of a text. -/
abbrev Reader (α : Type) := List Char → Except Fault (α × List Char)

/-- The characters that can begin a name. -/
def isNameStart (c : Char) : Bool :=
  Text.isAlphabetic c || c == '_'

/-- The characters that can continue a name. -/
def isNameChar (c : Char) : Bool :=
  Text.isAlphanumeric c || c == '_' || c == '-' || c == '.'

/-- Takes off one given character, after white space. -/
def expect (expected : Char) (s : List Char) : Except Fault (List Char) :=
  match skipSpace s with
  | [] => .error ⟨.expectedChar expected none, []⟩
  | c :: rest =>
      if c = expected then .ok rest
      else .error ⟨.expectedChar expected (some c), c :: rest⟩

/-- Takes off a name. -/
def name : Reader String
  | [] => .error ⟨.expectedName none, []⟩
  | c :: rest =>
      if isNameStart c then
        .ok (String.ofList (c :: rest.takeWhile isNameChar), rest.dropWhile isNameChar)
      else .error ⟨.expectedName (some c), c :: rest⟩

/-- Takes off a word that is not the start of a longer name. -/
def keyword? (word : List Char) (s : List Char) : Option (List Char) :=
  if word.isPrefixOf s && !(s.drop word.length).head?.any isNameChar then
    some (s.drop word.length)
  else none

/-- Takes off a number: digits with at most one point after or among them, or before them. -/
def numberLiteral (s : List Char) : Binary64 × List Char :=
  let whole := s.takeWhile Char.isDigit
  match s.dropWhile Char.isDigit with
  | '.' :: rest =>
      (Binary64.ofDecimal false whole (rest.takeWhile Char.isDigit), rest.dropWhile Char.isDigit)
  | rest => (Binary64.ofDecimal false whole [], rest)

/-- Takes off the rest of a text literal after its opening quote.  There are no escapes. -/
def textLiteral (quote : Char) (body : List Char) : Except Fault (String × List Char) :=
  match body.dropWhile (· != quote) with
  | [] => .error ⟨.unterminatedString, quote :: body⟩
  | _ :: rest => .ok (String.ofList (body.takeWhile (· != quote)), rest)

/-- Takes off an axis.  Without one, the step looks at children. -/
def axis : Reader Axis
  | '@' :: rest => .ok (.attributes, rest)
  | s =>
      match name s with
      | .error _ => .ok (.child, s)
      | .ok (word, rest) =>
          match skipSpace rest with
          | ':' :: ':' :: rest =>
              match Axis.ofName? word with
              | some axis => .ok (axis, rest)
              | none => .error ⟨.unknownAxis word, s⟩
          | _ => .ok (.child, s)

/-- Whether a name followed by a parenthesis is reserved for node tests. -/
def isNodeTypeName (word : String) : Bool :=
  word == "node" || word == "text" || word == "comment" || word == "processing-instruction"

/-- The node test for a name followed by a parenthesis. -/
def nodeType (word : String) : Except ParseCause NodeTest :=
  if word == "node" then .ok .anyNode
  else if word == "text" then .ok .anyText
  else if isNodeTypeName word then .error (.unsupportedNodeType word)
  else .error (.notNodeType word)

/-- Whether a single colon stands at the start of a text. -/
def startsPrefixed : List Char → Bool
  | ':' :: ':' :: _ => false
  | ':' :: _ => true
  | _ => false

/-- Takes off a node test. -/
def nodeTest (s : List Char) : Except Fault (NodeTest × List Char) :=
  match skipSpace s with
  | '*' :: rest => .ok (.anyElement, rest)
  | start => do
      let (word, rest) ← name start
      if startsPrefixed rest then .error ⟨.namespacePrefix, rest⟩
      else
        match skipSpace rest with
        | '(' :: inner =>
            match nodeType word with
            | .error cause => .error ⟨cause, start⟩
            | .ok test => do
                let rest ← expect ')' inner
                return (test, rest)
        | _ => return (.named word, rest)

/-- Whether a text is a name. -/
def isName : List Char → Bool
  | [] => false
  | c :: rest => isNameStart c && rest.all isNameChar

/-- A character is taken off if it comes first after white space. -/
theorem expect_eq_ok_iff {expected : Char} {s rest : List Char} :
    expect expected s = .ok rest ↔ skipSpace s = expected :: rest := by
  unfold expect
  cases skipSpace s with
  | nil => simp
  | cons c others =>
      by_cases h : c = expected <;> simp [h]

/-- A word is taken off if it comes first and does not go on. -/
theorem keyword?_eq_some_iff {word s rest : List Char} :
    keyword? word s = some rest ↔ s = word ++ rest ∧ rest.head?.any isNameChar = false := by
  unfold keyword?
  constructor
  · intro h
    split at h
    · rename_i hBoth
      rw [Bool.and_eq_true, List.isPrefixOf_iff_prefix, Bool.not_eq_true'] at hBoth
      obtain ⟨⟨others, rfl⟩, hNext⟩ := hBoth
      cases h
      rw [List.drop_left] at hNext ⊢
      exact ⟨rfl, hNext⟩
    · cases h
  · rintro ⟨rfl, hNext⟩
    rw [List.drop_left, hNext, List.isPrefixOf_iff_prefix.2 (List.prefix_append word rest)]
    rfl

/-- A name is taken off as far as it goes. -/
theorem name_eq_ok_iff {s rest : List Char} {word : String} :
    name s = .ok (word, rest) ↔
      s = word.toList ++ rest ∧ isName word.toList = true ∧
        rest.head?.any isNameChar = false := by
  constructor
  · intro h
    cases s with
    | nil => cases h
    | cons c others =>
        rw [name] at h
        split at h
        · rename_i hStart
          cases h
          refine ⟨?_, ?_, ?_⟩
          · simp
          · simp [isName, hStart, List.all_takeWhile]
          · have hHead := List.head?_dropWhile_not isNameChar others
            cases hRest : (others.dropWhile isNameChar).head? with
            | none => rfl
            | some d =>
                rw [hRest] at hHead
                simpa using hHead
        · cases h
  · rintro ⟨rfl, hName, hNext⟩
    cases hWord : word.toList with
    | nil =>
        rw [hWord] at hName
        cases hName
    | cons c others =>
        rw [hWord, isName, Bool.and_eq_true] at hName
        have hAll : ∀ d ∈ others, isNameChar d = true := List.all_eq_true.1 hName.2
        have hTake : (others ++ rest).takeWhile isNameChar = others := by
          rw [List.takeWhile_append_of_pos hAll]
          cases rest with
          | nil => simp
          | cons d tail => simp_all
        have hDrop : (others ++ rest).dropWhile isNameChar = rest := by
          rw [List.dropWhile_append_of_pos hAll]
          cases rest with
          | nil => rfl
          | cons d tail => simp_all
        have hWordEq : String.ofList (c :: others) = word := by
          rw [← hWord, String.ofList_toList]
        rw [List.cons_append, name, if_pos hName.1, hTake, hDrop, hWordEq]

/-- A text literal goes on to the next quote of its kind. -/
theorem textLiteral_eq_ok_iff {quote : Char} {body rest : List Char} {s : String} :
    textLiteral quote body = .ok (s, rest) ↔
      body = s.toList ++ quote :: rest ∧ quote ∉ s.toList := by
  unfold textLiteral
  constructor
  · intro h
    cases hDrop : body.dropWhile (· != quote) with
    | nil =>
        rw [hDrop] at h
        cases h
    | cons c others =>
        rw [hDrop] at h
        cases h
        have hQuote : c = quote := by
          have hHead := List.head?_dropWhile_not (· != quote) body
          rw [hDrop] at hHead
          simpa using hHead
        have hBody := List.takeWhile_append_dropWhile (p := (· != quote)) (l := body)
        rw [hDrop, hQuote] at hBody
        refine ⟨?_, ?_⟩
        · rw [String.toList_ofList]
          exact hBody.symm
        · intro hMem
          rw [String.toList_ofList] at hMem
          have hAll := List.all_takeWhile (p := (· != quote)) (l := body)
          simpa using List.all_eq_true.1 hAll quote hMem
  · rintro ⟨rfl, hQuote⟩
    have hAll : ∀ c ∈ s.toList, (c != quote) = true := by
      intro c hMem
      simp only [bne_iff_ne, ne_eq]
      exact fun hEq => hQuote (hEq ▸ hMem)
    rw [List.dropWhile_append_of_pos hAll, List.takeWhile_append_of_pos hAll]
    simp [String.ofList_toList]

end Parse

end CborPath
