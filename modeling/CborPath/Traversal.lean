/-!
# Traversals

Two ways of walking over linked places: repeating one move until it fails, and descending through
lists of children.  Both take a bound on the number of moves, so that they end whatever the links
are; with a bound that the places cannot exceed it is never felt.  What a move reaches when it is
repeated without a bound is given by a relation, for comparison.
-/

namespace CborPath

universe u

variable {α : Type u}

/-- The places reached by repeating a move, at most the given number of times. -/
def repeatMove (move : α → Option α) : Nat → α → List α
  | 0, _ => []
  | bound + 1, place =>
      match move place with
      | none => []
      | some next => next :: repeatMove move bound next

/-- Everything below a place, each place before what is below it, down to the given depth. -/
def descend (children : α → List α) : Nat → α → List α
  | 0, _ => []
  | bound + 1, place =>
      (children place).flatMap fun child => child :: descend children bound child

/-- The places met from a first one on, each by a move from the one before, until the move fails. -/
inductive Chain (move : α → Option α) : Option α → List α → Prop
  | nil :
      Chain move none []
  | cons {place : α} {rest : List α} :
      Chain move (move place) rest → Chain move (some place) (place :: rest)

/-- There is only one complete chain from a place. -/
theorem Chain.unique {move : α → Option α} {first : Option α} {places others : List α}
    (h : Chain move first places) (h' : Chain move first others) :
    places = others := by
  induction h generalizing others with
  | nil =>
      cases h'
      rfl
  | cons _ ih =>
      obtain _ | hRest := h'
      rw [ih hRest]

/-- What comes after a place of a chain is the chain from that place on. -/
theorem Chain.of_append_cons {move : α → Option α} {first : Option α} {before after : List α}
    {place : α} (h : Chain move first (before ++ place :: after)) :
    Chain move (move place) after := by
  induction before generalizing first with
  | nil =>
      obtain _ | hAfter := h
      exact hAfter
  | cons _ _ ih =>
      obtain _ | hRest := h
      exact ih hRest

/-- A bound that admits a complete chain is not felt. -/
theorem Chain.repeatMove_eq {move : α → Option α} {place : α} {rest : List α} {bound : Nat}
    (h : Chain move (move place) rest) (hBound : rest.length ≤ bound) :
    repeatMove move bound place = rest := by
  induction bound generalizing place rest with
  | zero =>
      rw [List.length_eq_zero_iff.1 (Nat.le_zero.1 hBound)]
      rfl
  | succ bound ih =>
      generalize hFirst : move place = first at h
      rw [repeatMove, hFirst]
      cases h with
      | nil => rfl
      | cons hRest =>
          rw [List.length_cons] at hBound
          simp only [ih hRest (by omega)]

theorem repeatMove_eq_nil {move : α → Option α} {place : α} (h : move place = none) (bound : Nat) :
    repeatMove move bound place = [] := by
  cases bound with
  | zero => rfl
  | succ bound => rw [repeatMove, h]

end CborPath
