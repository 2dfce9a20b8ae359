import CborPath.Proofs.Query.Operands

/-!
# Chains of operators

Operands with operators between them group by precedence: what is read last, and stands at the top of the
expression, is the operator that binds least, the last one of these if there are several; or else the
minus sign in front, which binds less than a union only.  This is a relation between a chain and an
expression; it says nothing about how the grouping is found.
-/

namespace CborPath

open Parse (Operator)

/-- How tightly a minus sign binds. -/
def minusPrecedence : Nat := 6

/-- How tightly an operator binds. -/
def Parse.Operator.precedence : Operator → Nat
  | or => 0
  | and => 1
  | compare .equal | compare .notEqual => 2
  | compare .less | compare .lessOrEqual | compare .greater | compare .greaterOrEqual => 3
  | arithmetic .add | arithmetic .subtract => 4
  | arithmetic .multiply | arithmetic .divide | arithmetic .modulo => 5
  | union => 7

/-- The expression that has an operator at the top, and its operands below. -/
def Parse.Operator.node : Operator → Expr → Expr → Expr
  | or, left, right => .or left right
  | and, left, right => .and left right
  | compare op, left, right => .compare op left right
  | arithmetic op, left, right => .arithmetic op left right
  | union, left, right => .union left right

theorem Parse.Operator.apply_eq_node (operator : Operator) (left right : Expr) :
    operator.apply left right = operator.node left right := by
  cases operator <;> rfl

theorem Parse.Operator.precedence_le (operator : Operator) :
    operator.precedence ≤ 7 := by
  rcases operator with _ | _ | op | op | _ <;> try cases op
  all_goals decide

/-- Nothing but a union binds as tightly as a minus sign. -/
theorem Parse.Operator.eq_union_of_le {operator : Operator}
    (h : minusPrecedence ≤ operator.precedence) :
    operator = .union := by
  rcases operator with _ | _ | op | op | _ <;> try cases op
  all_goals first | rfl | exact absurd h (by decide)

/-- A union operand with minus signs before it. -/
structure Operand where
  minuses : Nat
  atom : Atom

/-- The text of an operand. -/
def Operand.text (operand : Operand) : List Char :=
  List.replicate operand.minuses '-' ++ operand.atom.text

/-- An operator with the operand after it, which has no minus sign if the operator is a union. -/
structure Link where
  operator : Operator
  operand : Operand
  bare : operator = .union → operand.minuses = 0

/-- The text of links: blanks stand around each operator. -/
def linksText (links : List Link) : List Char :=
  links.flatMap fun link => ' ' :: link.operator.rightText link.operand.text

/-- Operands with operators between them. -/
structure OperatorChain where
  first : Operand
  links : List Link

namespace OperatorChain

/-- The text of a chain. -/
def text (c : OperatorChain) : List Char :=
  c.first.text ++ linksText c.links

/-- A chain that goes on. -/
def extend (c : OperatorChain) (links : List Link) : OperatorChain :=
  ⟨c.first, c.links ++ links⟩

theorem extend_extend (c : OperatorChain) (before after : List Link) :
    (c.extend before).extend after = c.extend (before ++ after) := by
  rw [extend, extend, extend, List.append_assoc]

/-- The grouping of a chain.  At the top stands the last operator of those that bind least, if none of
them binds more than a minus sign in front; or else that sign; or else the chain is a single atom. -/
inductive Groups : OperatorChain → Expr → Prop
  | atom (a : Atom) : Groups ⟨⟨0, a⟩, []⟩ a.expr
  | minus {minuses : Nat} {a : Atom} {links : List Link} {x : Expr}
      (hTighter : ∀ link ∈ links, minusPrecedence < link.operator.precedence)
      (hOperand : Groups ⟨⟨minuses, a⟩, links⟩ x) :
      Groups ⟨⟨minuses + 1, a⟩, links⟩ (.negate x)
  | operator {first : Operand} {before after : List Link} {link : Link} {left right : Expr}
      (hBefore : ∀ other ∈ before, link.operator.precedence ≤ other.operator.precedence)
      (hAfter : ∀ other ∈ after, link.operator.precedence < other.operator.precedence)
      (hSign : first.minuses ≠ 0 → link.operator.precedence < minusPrecedence)
      (hLeft : Groups ⟨first, before⟩ left) (hRight : Groups ⟨link.operand, after⟩ right) :
      Groups ⟨first, before ++ link :: after⟩ (link.operator.node left right)

/-- The forms of a grouping, with what is at the top. -/
theorem Groups.form {c : OperatorChain} {x : Expr} (h : c.Groups x) :
    (∃ a, c = ⟨⟨0, a⟩, []⟩ ∧ x = a.expr) ∨
    (∃ minuses a links y, c = ⟨⟨minuses + 1, a⟩, links⟩ ∧ x = .negate y ∧
      (∀ link ∈ links, minusPrecedence < link.operator.precedence) ∧
        Groups ⟨⟨minuses, a⟩, links⟩ y) ∨
    ∃ first before link after left right, c = ⟨first, before ++ link :: after⟩ ∧
      x = link.operator.node left right ∧
      (∀ other ∈ before, link.operator.precedence ≤ other.operator.precedence) ∧
      (∀ other ∈ after, link.operator.precedence < other.operator.precedence) ∧
      (first.minuses ≠ 0 → link.operator.precedence < minusPrecedence) ∧
      Groups ⟨first, before⟩ left ∧ Groups ⟨link.operand, after⟩ right := by
  cases h with
  | atom a => exact .inl ⟨a, rfl, rfl⟩
  | minus hTighter hOperand => exact .inr (.inl ⟨_, _, _, _, rfl, rfl, hTighter, hOperand⟩)
  | operator hBefore hAfter hSign hLeft hRight =>
      exact .inr (.inr ⟨_, _, _, _, _, _, rfl, rfl, hBefore, hAfter, hSign, hLeft, hRight⟩)

/-- The last one of the links that bind least is the only one. -/
theorem split_unique {before before' after after' : List Link} {link link' : Link}
    (hSplit : before ++ link :: after = before' ++ link' :: after')
    (hBefore : ∀ other ∈ before, link.operator.precedence ≤ other.operator.precedence)
    (hAfter : ∀ other ∈ after, link.operator.precedence < other.operator.precedence)
    (hBefore' : ∀ other ∈ before', link'.operator.precedence ≤ other.operator.precedence)
    (hAfter' : ∀ other ∈ after', link'.operator.precedence < other.operator.precedence) :
    before = before' ∧ link = link' ∧ after = after' := by
  rcases List.append_eq_append_iff.1 hSplit with ⟨between, rfl, hRest⟩ | ⟨between, rfl, hRest⟩
  · cases between with
    | nil =>
        obtain ⟨rfl, rfl⟩ := List.cons.inj hRest
        exact ⟨(List.append_nil _).symm, rfl, rfl⟩
    | cons other others =>
        obtain ⟨rfl, rfl⟩ := List.cons.inj hRest
        have hLess := hAfter link' (List.mem_append_right _ (List.mem_cons_self ..))
        have hMost := hBefore' link (List.mem_append_right _ (List.mem_cons_self ..))
        omega
  · cases between with
    | nil =>
        obtain ⟨rfl, rfl⟩ := List.cons.inj hRest
        exact ⟨List.append_nil _, rfl, rfl⟩
    | cons other others =>
        obtain ⟨rfl, rfl⟩ := List.cons.inj hRest
        have hLess := hAfter' link (List.mem_append_right _ (List.mem_cons_self ..))
        have hMost := hBefore link' (List.mem_append_right _ (List.mem_cons_self ..))
        omega

/-- A chain has at most one grouping. -/
theorem Groups.unique {c : OperatorChain} {x y : Expr} (h : c.Groups x) (h' : c.Groups y) :
    x = y := by
  induction h generalizing y with
  | atom a =>
      rcases h'.form with ⟨b, hChain, rfl⟩ | ⟨_, _, _, _, hChain, -⟩ |
        ⟨_, before, link, after, _, _, hChain, -⟩
      · cases hChain
        rfl
      · cases hChain
      · have hLinks : [] = before ++ link :: after := congrArg OperatorChain.links hChain
        simp at hLinks
  | @minus minuses a links x hTighter _ ih =>
      rcases h'.form with ⟨b, hChain, -⟩ | ⟨_, _, _, _, hChain, rfl, -, hOperand⟩ |
        ⟨_, before, link, after, _, _, hChain, -, -, -, hSign, -⟩
      · cases hChain
      · cases hChain
        rw [ih hOperand]
      · obtain ⟨hFirst, rfl⟩ := OperatorChain.mk.inj hChain
        have hLess := hSign (by rw [← hFirst]; exact Nat.succ_ne_zero minuses)
        have hMore := hTighter link (List.mem_append_right _ (List.mem_cons_self ..))
        omega
  | @operator first before after link left right hBefore hAfter hSign _ _ ihLeft ihRight =>
      rcases h'.form with ⟨b, hChain, -⟩ | ⟨_, _, _, _, hChain, -, hTighter, -⟩ |
        ⟨_, _, _, _, _, _, hChain, rfl, hBefore', hAfter', -, hLeft, hRight⟩
      · have hLinks : before ++ link :: after = [] := congrArg OperatorChain.links hChain
        simp at hLinks
      · obtain ⟨rfl, rfl⟩ := OperatorChain.mk.inj hChain
        have hLess := hSign (Nat.succ_ne_zero _)
        have hMore := hTighter link (List.mem_append_right _ (List.mem_cons_self ..))
        omega
      · obtain ⟨rfl, hLinks⟩ := OperatorChain.mk.inj hChain
        obtain ⟨rfl, rfl, rfl⟩ := split_unique hLinks hBefore hAfter hBefore' hAfter'
        rw [ihLeft hLeft, ihRight hRight]

/-- The atoms of links with the minus signs that they stand under, when so many stand before the
first link: a sign reaches over the unions that follow it. -/
def signedAtoms : Nat → List Link → List (Nat × Atom)
  | _, [] => []
  | signs, link :: links =>
      let own := if link.operator = .union then signs else link.operand.minuses
      (own, link.operand.atom) :: signedAtoms own links

/-- The atoms of a chain with the minus signs that they stand under. -/
def atoms (c : OperatorChain) : List (Nat × Atom) :=
  (c.first.minuses, c.first.atom) :: signedAtoms c.first.minuses c.links

/-- Whether so many levels of nesting are enough: each minus sign takes one from what it stands
before. -/
def Fits (levels : Nat) (c : OperatorChain) : Prop :=
  ∀ signed ∈ c.atoms, signed.1 ≤ levels ∧ signed.2.Fits (levels - signed.1)

section Fits

variable {c : OperatorChain} {a : Atom} {link : Link} {links : List Link} {levels minuses signs : Nat}

/-- The minus signs that the last one of some links stands under. -/
def signsAfter : Nat → List Link → Nat
  | signs, [] => signs
  | signs, link :: links =>
      signsAfter (if link.operator = .union then signs else link.operand.minuses) links

theorem signedAtoms_append (signs : Nat) (before after : List Link) :
    signedAtoms signs (before ++ after) =
      signedAtoms signs before ++ signedAtoms (signsAfter signs before) after := by
  induction before generalizing signs with
  | nil => rfl
  | cons link before ih =>
      rw [List.cons_append, signedAtoms, signedAtoms, signsAfter, ih, List.cons_append]

/-- A minus sign reaches over all unions. -/
theorem signsAfter_of_unions (h : ∀ link ∈ links, link.operator = .union) :
    signsAfter signs links = signs := by
  induction links with
  | nil => rfl
  | cons link links ih =>
      obtain ⟨hFirst, hOthers⟩ := List.forall_mem_cons.1 h
      rw [signsAfter, if_pos hFirst, ih hOthers]

theorem signedAtoms_of_unions (h : ∀ link ∈ links, link.operator = .union) :
    signedAtoms (signs + 1) links =
      (signedAtoms signs links).map fun signed => (signed.1 + 1, signed.2) := by
  induction links with
  | nil => rfl
  | cons link links ih =>
      obtain ⟨hFirst, hOthers⟩ := List.forall_mem_cons.1 h
      rw [signedAtoms, signedAtoms, if_pos hFirst, if_pos hFirst, ih hOthers, List.map_cons]

/-- One more minus sign in front of unions needs one more level. -/
theorem fits_minus_iff (h : ∀ link ∈ links, link.operator = .union) :
    Fits (levels + 1) ⟨⟨minuses + 1, a⟩, links⟩ ↔ Fits levels ⟨⟨minuses, a⟩, links⟩ := by
  have hAtoms : atoms ⟨⟨minuses + 1, a⟩, links⟩ =
      (atoms ⟨⟨minuses, a⟩, links⟩).map fun signed => (signed.1 + 1, signed.2) := by
    rw [atoms, atoms, signedAtoms_of_unions h, List.map_cons]
  rw [Fits, Fits, hAtoms, List.forall_mem_map]
  refine forall₂_congr fun signed _ => ?_
  rw [Nat.succ_le_succ_iff, Nat.add_sub_add_right]

theorem not_fits_zero : ¬Fits 0 ⟨⟨minuses + 1, a⟩, links⟩ :=
  fun h => absurd (h _ (List.mem_cons_self ..)).1 (Nat.not_succ_le_zero minuses)

/-- Where no minus sign reaches over a link, the parts before and after it fit on their own. -/
theorem fits_extend_iff
    (h : link.operator = .union → signsAfter c.first.minuses c.links = 0) :
    (c.extend (link :: links)).Fits levels ↔ c.Fits levels ∧ Fits levels ⟨link.operand, links⟩ := by
  have hOwn : (if link.operator = .union then signsAfter c.first.minuses c.links
      else link.operand.minuses) = link.operand.minuses := by
    split
    · rename_i hUnion
      rw [h hUnion, link.bare hUnion]
    · rfl
  have hAtoms : (c.extend (link :: links)).atoms = c.atoms ++ atoms ⟨link.operand, links⟩ := by
    rw [extend, atoms, atoms, atoms, signedAtoms_append, signedAtoms, hOwn, List.cons_append]
  rw [Fits, Fits, Fits, hAtoms, List.forall_mem_append]

/-- What comes first in a chain that fits does so on its own. -/
theorem Fits.of_extend (h : (c.extend links).Fits levels) :
    c.Fits levels := by
  intro signed hMem
  refine h signed ?_
  rw [extend, atoms, signedAtoms_append, ← List.cons_append]
  exact List.mem_append_left _ hMem

end Fits

/-- Whether the operators of a chain have at least a precedence; one above that of the minus sign leaves
no such sign in front. -/
structure Suits (precedence : Nat) (c : OperatorChain) : Prop where
  links : ∀ link ∈ c.links, precedence ≤ link.operator.precedence
  sign : minusPrecedence < precedence → c.first.minuses = 0

section Suits

variable {c : OperatorChain} {precedence levels : Nat} {link : Link} {inside : List Link}
  (hSuits : c.Suits precedence) (hOwn : link.operator.precedence = precedence)
include hOwn

/-- The operand after an operator, with the links that bind more. -/
theorem suits_segment (hInside : ∀ other ∈ inside, precedence + 1 ≤ other.operator.precedence) :
    Suits (precedence + 1) ⟨link.operand, inside⟩ :=
  ⟨hInside, fun hLess => link.bare (Operator.eq_union_of_le (hOwn ▸ Nat.le_of_lt_succ hLess))⟩

include hSuits

theorem Suits.extend (hInside : ∀ other ∈ inside, precedence + 1 ≤ other.operator.precedence) :
    (c.extend (link :: inside)).Suits precedence := by
  refine ⟨List.forall_mem_append.2 ⟨hSuits.links, List.forall_mem_cons.2 ⟨hOwn.ge, ?_⟩⟩, hSuits.sign⟩
  exact fun other hMem => Nat.le_of_succ_le (hInside other hMem)

/-- An operator that binds no more than those before it makes a new grouping of theirs and what follows
it. -/
theorem Suits.groups_extend (hInside : ∀ other ∈ inside, precedence + 1 ≤ other.operator.precedence)
    {left right : Expr} (hLeft : c.Groups left) (hRight : Groups ⟨link.operand, inside⟩ right) :
    (c.extend (link :: inside)).Groups (link.operator.apply left right) := by
  subst hOwn
  rw [Operator.apply_eq_node]
  refine .operator hSuits.links hInside (fun hSome => ?_) hLeft hRight
  by_contra hNot
  have hUnion := Operator.eq_union_of_le (Nat.le_of_not_lt hNot)
  refine hSome (hSuits.sign ?_)
  rw [hUnion]
  decide

theorem Suits.fits_extend_iff :
    (c.extend (link :: inside)).Fits levels ↔ c.Fits levels ∧ Fits levels ⟨link.operand, inside⟩ := by
  refine OperatorChain.fits_extend_iff fun hUnion => ?_
  have hPrecedence : precedence = 7 := by
    rw [← hOwn, hUnion]
    rfl
  subst hPrecedence
  rw [signsAfter_of_unions fun other hMem =>
    Operator.eq_union_of_le (Nat.le_of_succ_le (hSuits.links other hMem))]
  exact hSuits.sign (by decide)

end Suits

end OperatorChain

end CborPath
