import CborPath.Proofs.Query.Continuation

/-!
# Parts that fit

An expression is put together from parts that are texts of their own.  Each part is read as by itself
if it fits into the levels of nesting that are left for it, and fails for its nesting if not; the whole
is read just when all of its parts fit, and otherwise it fails for the same reason.
-/

namespace CborPath

open Text (skipSpace)

namespace Parse

/-- Whether an outcome is a given result under a condition, and is the failure of what nests too deeply
otherwise. -/
structure Settles {α : Type} (fits : Prop) (outcome : Except Fault α) (x : α) : Prop where
  result : fits → outcome = .ok x
  failure : ¬fits → FailsDeep outcome

section Settles

variable {α β : Type} {fits more : Prop} {outcome : Except Fault α} {next : α → Except Fault β}
  {x : α} {y : β}

theorem Settles.congr (h : Settles fits outcome x) (hIff : fits ↔ more) :
    Settles more outcome x :=
  ⟨fun hFits => h.result (hIff.2 hFits), fun hNot => h.failure fun hFits => hNot (hIff.1 hFits)⟩

theorem Settles.exists_ok_iff (h : Settles fits outcome x) :
    (∃ y, outcome = .ok y) ↔ fits := by
  constructor
  · rintro ⟨y, rfl⟩
    by_contra hNot
    obtain ⟨place, hFails⟩ := h.failure hNot
    cases hFails
  · exact fun hFits => ⟨x, h.result hFits⟩

/-- What comes after a part is settled by the parts after it, if that one fits. -/
theorem Settles.bind (h : Settles fits outcome x) (hNext : Settles more (next x) y) :
    Settles (fits ∧ more) (outcome >>= next) y := by
  refine ⟨fun hBoth => bind_eq_ok (h.result hBoth.1) (hNext.result hBoth.2), fun hNot => ?_⟩
  by_cases hFits : fits
  · exact failsDeep_bind (h.result hFits) (hNext.failure fun hMore => hNot ⟨hFits, hMore⟩)
  · exact (h.failure hFits).bind

theorem Settles.bind_ok (h : Settles fits outcome x) (hNext : next x = .ok y) :
    Settles fits (outcome >>= next) y :=
  ⟨fun hFits => bind_eq_ok (h.result hFits) hNext, fun hNot => (h.failure hNot).bind⟩

theorem settles_bind (h : outcome = .ok x) (hNext : Settles fits (next x) y) :
    Settles fits (outcome >>= next) y := by
  subst h
  exact hNext

/-- A part that has to fit comes before what settles the whole. -/
theorem Settles.bind_of_imp (h : Settles fits outcome x) (hImp : more → fits)
    (hNext : fits → Settles more (next x) y) :
    Settles more (outcome >>= next) y := by
  by_cases hFits : fits
  · exact settles_bind (h.result hFits) (hNext hFits)
  · exact ⟨fun hMore => absurd (hImp hMore) hFits, fun _ => (h.failure hFits).bind⟩

end Settles

/-- Whether a text by itself is not too deeply nested for a reader. -/
def FitsIn (nested : Reader Expr) (text : List Char) : Prop :=
  ∃ read, nested text = .ok read

/-- Whether a reader takes off a text as an expression wherever an expression may end after it, and
after any white space, unless the text nests too deeply. -/
def Admits (nested : Reader Expr) (text : List Char) (expr : Expr) : Prop :=
  ∀ rest, GoesOn closers rest → ∀ s, skipSpace s = skipSpace (text ++ rest) →
    Settles (FitsIn nested text) (nested s) (expr, rest)

/-- A text that is put into an expression, and what it stands for there. -/
abbrev Part :=
  List Char × Expr

/-- Whether a reader takes off each one of some parts. -/
def AdmitsAll (nested : Reader Expr) (parts : List Part) : Prop :=
  ∀ part ∈ parts, Admits nested part.1 part.2

/-- Whether each one of some parts is not too deeply nested for a reader. -/
def AllFit (nested : Reader Expr) (parts : List Part) : Prop :=
  ∀ part ∈ parts, FitsIn nested part.1

/-- The texts of parts in brackets. -/
def bracketed (parts : List Part) : List Char :=
  parts.flatMap fun part => '[' :: (part.1 ++ [']'])

/-- What the parts stand for. -/
def meanings (parts : List Part) : List Expr :=
  parts.map (·.2)

section Nested

variable {nested : Reader Expr} {text rest s : List Char} {expr : Expr} {part : Part}
  {parts : List Part} {fits : Prop}

theorem Admits.settles (h : Admits nested text expr) (hRest : GoesOn closers rest) :
    Settles (FitsIn nested text) (nested (text ++ rest)) (expr, rest) :=
  h rest hRest _ rfl

theorem allFit_cons_iff :
    AllFit nested (part :: parts) ↔ FitsIn nested part.1 ∧ AllFit nested parts :=
  List.forall_mem_cons

theorem allFit_nil : AllFit nested [] :=
  fun _ hMem => absurd hMem List.not_mem_nil

theorem allFit_singleton_iff :
    AllFit nested [part] ↔ FitsIn nested part.1 :=
  List.forall_mem_singleton

theorem bracketed_cons_append (part : Part) (parts : List Part) (rest : List Char) :
    bracketed (part :: parts) ++ rest = '[' :: (part.1 ++ ']' :: (bracketed parts ++ rest)) := by
  simp only [bracketed, List.flatMap_cons, List.cons_append, List.append_assoc, List.nil_append]

/-- Predicates are settled one after the other. -/
theorem settles_predicates (hKeeps : TakesOff nested) (hParts : AdmitsAll nested parts)
    (hRest : (skipSpace rest).head? ≠ some '[') :
    Settles (AllFit nested parts) (predicates nested (bracketed parts ++ rest))
      (meanings parts, skipSpace rest) := by
  induction parts with
  | nil => exact ⟨fun _ => predicates_of_head?_ne hRest, fun hNot => absurd allFit_nil hNot⟩
  | cons part parts ih =>
      obtain ⟨hFirst, hOthers⟩ := List.forall_mem_cons.1 hParts
      rw [bracketed_cons_append, predicates_of_bracket hKeeps rfl]
      refine Settles.congr ?_ allFit_cons_iff.symm
      refine (hFirst.settles (goesOn_bracket _)).bind ?_
      exact settles_bind (expect_eq_ok_iff.2 rfl) ((ih hOthers).bind_ok rfl)

section Primary

/-- In parentheses, a part is a primary expression. -/
theorem settles_parenthesized (h : Admits nested text expr) (rest : List Char) :
    Settles (FitsIn nested text) (primary nested (parenthesized text ++ rest)) (expr, rest) := by
  rw [parenthesized, List.cons_append, List.append_assoc]
  refine (h.settles (goesOn_parenthesis rest)).bind_ok ?_
  exact bind_eq_ok (expect_eq_ok_iff.2 rfl) rfl

end Primary

section Call

/-- The text of parts with commas between them. -/
def argumentText (parts : List Part) : List Char :=
  List.intercalate [','] (parts.map (·.1))

theorem argumentText_singleton (part : Part) :
    argumentText [part] = part.1 := by
  simp [argumentText]

theorem argumentText_cons_cons (first second : Part) (others : List Part) :
    argumentText (first :: second :: others) = first.1 ++ ',' :: argumentText (second :: others) := by
  simp [argumentText, List.intercalate]

/-- Arguments are settled one after the other. -/
theorem settles_closedArguments {first : Part} {others : List Part} (hKeeps : TakesOff nested)
    (hParts : AdmitsAll nested (first :: others)) (rest : List Char) {s : List Char}
    (hText : skipSpace s = skipSpace (argumentText (first :: others) ++ ')' :: rest)) :
    Settles (AllFit nested (first :: others)) (closedArguments nested s)
      (meanings (first :: others), rest) := by
  induction others generalizing first s with
  | nil =>
      rw [argumentText_singleton] at hText
      rw [closedArguments_eq hKeeps]
      have hFirst := hParts first (List.mem_cons_self ..) _ (goesOn_parenthesis rest) s hText
      refine Settles.congr ?_ allFit_singleton_iff.symm
      exact hFirst.bind_ok rfl
  | cons second others ih =>
      rw [argumentText_cons_cons, List.append_assoc, List.cons_append] at hText
      rw [closedArguments_eq hKeeps]
      obtain ⟨hFirst, hOthers⟩ := List.forall_mem_cons.1 hParts
      refine Settles.congr ?_ allFit_cons_iff.symm
      refine (hFirst _ (goesOn_comma _) s hText).bind ?_
      dsimp only
      rw [moreArguments_of_comma rfl]
      exact (ih hOthers rfl).bind_ok rfl

theorem settles_arguments (hKeeps : TakesOff nested) (hParts : AdmitsAll nested parts)
    (hOpens : ∀ part ∈ parts, ∀ rest, (skipSpace (part.1 ++ rest)).head? ≠ some ')')
    (rest : List Char) :
    Settles (AllFit nested parts) (arguments nested (argumentText parts ++ ')' :: rest))
      (meanings parts, rest) := by
  cases parts with
  | nil => exact ⟨fun _ => rfl, fun hNot => absurd allFit_nil hNot⟩
  | cons first others =>
      have hFirst := hOpens first (List.mem_cons_self ..)
      have hStart : (skipSpace (argumentText (first :: others) ++ ')' :: rest)).head? ≠ some ')' := by
        cases others with
        | nil =>
            rw [argumentText_singleton]
            exact hFirst _
        | cons second others =>
            rw [argumentText_cons_cons, List.append_assoc]
            exact hFirst _
      rw [arguments_of_head?_ne hStart]
      exact settles_closedArguments hKeeps hParts rest (Text.skipSpace_skipSpace _)

/-- A call is settled by its arguments. -/
theorem settles_functionCall {function : CoreFunction} {call : Expr}
    (hCall : function.call? (meanings parts) = some call) (hKeeps : TakesOff nested)
    (hParts : AdmitsAll nested parts)
    (hOpens : ∀ part ∈ parts, ∀ rest, (skipSpace (part.1 ++ rest)).head? ≠ some ')')
    (rest : List Char) :
    Settles (AllFit nested parts)
      (functionCall nested (function.spelling.toList ++ '(' :: (argumentText parts ++ ')' :: rest)))
      (call, rest) := by
  have hNamed : Parse.call function.spelling (meanings parts) = .ok call := by
    rw [Parse.call, ofName?_spelling]
    dsimp only
    rw [hCall]
  refine settles_bind (name_spelling function _) (settles_bind (expect_eq_ok_iff.2 rfl) ?_)
  refine (settles_arguments hKeeps hParts hOpens rest).bind_ok ?_
  dsimp only
  rw [hNamed]
  rfl

end Call

end Nested

end Parse

end CborPath
