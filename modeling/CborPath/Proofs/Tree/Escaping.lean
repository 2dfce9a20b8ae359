import CborPath.Tree.Xml
import Mathlib.Data.List.Basic

/-!
# Escaping

An escaped name has no angle bracket, reads back as the name, and begins with a slash exactly if the
name does.
-/

namespace CborPath

namespace Tree

/-- Whether a character is an angle bracket. -/
def isBracket (c : Char) : Bool :=
  c == '<' || c == '>'

/-- The text that an escaped text stands for. -/
def unescaped : List Char → List Char
  | '&' :: 'a' :: 'm' :: 'p' :: ';' :: rest => '&' :: unescaped rest
  | '&' :: 'l' :: 't' :: ';' :: rest => '<' :: unescaped rest
  | '&' :: 'g' :: 't' :: ';' :: rest => '>' :: unescaped rest
  | c :: rest => c :: unescaped rest
  | [] => []

/-- A character is written as itself unless it is one of three. -/
theorem escapedChar_cases (c : Char) :
    (c = '&' ∧ escapedChar c = ['&', 'a', 'm', 'p', ';']) ∨
      (c = '<' ∧ escapedChar c = ['&', 'l', 't', ';']) ∨
      (c = '>' ∧ escapedChar c = ['&', 'g', 't', ';']) ∨
      c ≠ '&' ∧ isBracket c = false ∧ escapedChar c = [c] := by
  rw [escapedChar]
  split
  · exact .inl ⟨‹_›, rfl⟩
  · split
    · exact .inr (.inl ⟨‹_›, rfl⟩)
    · split
      · exact .inr (.inr (.inl ⟨‹_›, rfl⟩))
      · refine .inr (.inr (.inr ⟨‹_›, ?_, rfl⟩))
        simp [isBracket, *]

theorem unescaped_cons_of_ne {c : Char} (h : c ≠ '&') (rest : List Char) :
    unescaped (c :: rest) = c :: unescaped rest := by
  rw [unescaped.eq_def]
  split <;> simp_all

theorem unescaped_escapedChar_append (c : Char) (rest : List Char) :
    unescaped (escapedChar c ++ rest) = c :: unescaped rest := by
  obtain ⟨rfl, -⟩ | ⟨rfl, -⟩ | ⟨rfl, -⟩ | ⟨hAmpersand, -, hOwn⟩ := escapedChar_cases c
  · simp [escapedChar, unescaped]
  · simp [escapedChar, unescaped]
  · simp [escapedChar, unescaped]
  · rw [hOwn]
    exact unescaped_cons_of_ne hAmpersand rest

theorem unescaped_flatMap (s : List Char) :
    unescaped (s.flatMap escapedChar) = s := by
  induction s with
  | nil => rfl
  | cons c rest ih => rw [List.flatMap_cons, unescaped_escapedChar_append, ih]

theorem toList_escaped (name : String) :
    (escaped name).toList = name.toList.flatMap escapedChar := by
  rw [escaped, String.toList_ofList]

theorem unescaped_escaped (name : String) :
    unescaped (escaped name).toList = name.toList := by
  rw [toList_escaped, unescaped_flatMap]

/-- Different names are escaped differently. -/
theorem escaped_injective {name other : String} (h : (escaped name).toList = (escaped other).toList) :
    name = other := by
  rw [← String.toList_inj, ← unescaped_escaped, h, unescaped_escaped]

/-- No angle bracket is left. -/
theorem any_isBracket_escaped (name : String) :
    (escaped name).toList.any isBracket = false := by
  rw [toList_escaped, List.any_flatMap, List.any_eq_false]
  intro c _
  obtain ⟨-, h⟩ | ⟨-, h⟩ | ⟨-, h⟩ | ⟨-, hBracket, h⟩ := escapedChar_cases c <;> rw [h]
  · decide
  · decide
  · decide
  · simp [hBracket]

/-- A slash at the start is not changed, and none is put there. -/
theorem head?_escaped_eq_slash_iff {name : String} :
    (escaped name).toList.head? = some '/' ↔ name.toList.head? = some '/' := by
  rw [toList_escaped]
  cases name.toList with
  | nil => rfl
  | cons c rest =>
      rw [List.flatMap_cons]
      obtain ⟨rfl, -⟩ | ⟨rfl, -⟩ | ⟨rfl, -⟩ | ⟨-, -, h⟩ := escapedChar_cases c
      · simp [escapedChar]
      · simp [escapedChar]
      · simp [escapedChar]
      · rw [h]
        rfl

end Tree

end CborPath
