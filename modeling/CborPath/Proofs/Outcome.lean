/-!
# Properties of outcomes

A computation that may fail yields a property if its result has it whenever there is one, and fails
with a property if its failure has it whenever there is one.  What the steps of a computation yield,
and what they fail with, is carried from one to the next.
-/

namespace CborPath

/-- Whether an outcome, if it is a result, has a property. -/
def Yields {ε α : Type} (outcome : Except ε α) (p : α → Prop) : Prop :=
  ∀ x, outcome = .ok x → p x

section Yields

variable {ε α β : Type} {outcome : Except ε α} {p q : α → Prop}

theorem yields_ok {x : α} (h : p x) :
    Yields (.ok x : Except ε α) p := by
  intro y hEq
  cases hEq
  exact h

theorem yields_error (e : ε) :
    Yields (.error e) p :=
  nofun

theorem Yields.mono (h : Yields outcome p) (hImp : ∀ x, p x → q x) :
    Yields outcome q :=
  fun x hEq => hImp x (h x hEq)

theorem Yields.bind {next : α → Except ε β} {r : β → Prop} (h : Yields outcome p)
    (hNext : ∀ x, p x → Yields (next x) r) :
    Yields (outcome >>= next) r := by
  cases outcome with
  | error e => exact yields_error e
  | ok x => exact hNext x (h x rfl)

/-- What a computation yields whatever its first step gives. -/
theorem yields_bind {next : α → Except ε β} {r : β → Prop} (h : ∀ x, Yields (next x) r) :
    Yields (outcome >>= next) r := by
  cases outcome with
  | error e => exact yields_error e
  | ok x => exact h x

end Yields

/-- Whether an outcome, if it is a failure, has a property. -/
def FailsWith {ε α : Type} (outcome : Except ε α) (p : ε → Prop) : Prop :=
  ∀ e, outcome = .error e → p e

section FailsWith

variable {ε α β : Type} {outcome : Except ε α} {p q : ε → Prop}

theorem failsWith_ok (x : α) :
    FailsWith (.ok x : Except ε α) p :=
  nofun

theorem FailsWith.mono (h : FailsWith outcome p) (hImp : ∀ e, p e → q e) :
    FailsWith outcome q :=
  fun e hEq => hImp e (h e hEq)

/-- What the steps of a computation fail with, the computation fails with. -/
theorem FailsWith.bind {next : α → Except ε β} (h : FailsWith outcome p)
    (hNext : ∀ x, outcome = .ok x → FailsWith (next x) p) :
    FailsWith (outcome >>= next) p := by
  cases outcome with
  | error e =>
      intro e' hEq
      cases hEq
      exact h e rfl
  | ok x => exact hNext x rfl

end FailsWith

/-- A computation has a result if its first step has one from which the next goes on to it. -/
theorem bind_eq_ok_iff {ε α β : Type} {outcome : Except ε α} {next : α → Except ε β} {y : β} :
    outcome >>= next = .ok y ↔ ∃ x, outcome = .ok x ∧ next x = .ok y := by
  cases outcome with
  | error e => exact ⟨nofun, nofun⟩
  | ok x => exact ⟨fun h => ⟨x, rfl, h⟩, fun ⟨_, hEq, h⟩ => by cases hEq; exact h⟩

theorem bind_eq_ok {ε α β : Type} {outcome : Except ε α} {next : α → Except ε β} {x : α} {y : β}
    (h : outcome = .ok x) (hNext : next x = .ok y) :
    outcome >>= next = .ok y :=
  bind_eq_ok_iff.2 ⟨x, h, hNext⟩

/-- Only the results of the first step matter to the next one. -/
theorem bind_congr_of_ok {ε α β : Type} {outcome : Except ε α} {next next' : α → Except ε β}
    (h : ∀ x, outcome = .ok x → next x = next' x) :
    outcome >>= next = outcome >>= next' := by
  cases outcome with
  | error e => rfl
  | ok x => exact h x rfl

/-- Whether two outcomes have the same result, if any.  Their failures may differ. -/
def SameResult {ε α : Type} (outcome other : Except ε α) : Prop :=
  ∀ x, outcome = .ok x ↔ other = .ok x

theorem SameResult.refl {ε α : Type} (outcome : Except ε α) :
    SameResult outcome outcome :=
  fun _ => .rfl

theorem SameResult.bind {ε α β : Type} {outcome other : Except ε α} {next next' : α → Except ε β}
    (h : SameResult outcome other) (hNext : ∀ x, SameResult (next x) (next' x)) :
    SameResult (outcome >>= next) (other >>= next') := by
  intro y
  rw [bind_eq_ok_iff, bind_eq_ok_iff]
  exact exists_congr fun x => and_congr (h x) (hNext x y)

/-- Putting a failure differently changes no result. -/
theorem mapError_eq_ok_iff {ε ε' α : Type} {outcome : Except ε α} {f : ε → ε'} {x : α} :
    outcome.mapError f = .ok x ↔ outcome = .ok x := by
  cases outcome with
  | error e => exact ⟨nofun, nofun⟩
  | ok y => exact ⟨fun h => by cases h; rfl, fun h => by cases h; rfl⟩

end CborPath
