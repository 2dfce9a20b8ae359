import CborPath.Proofs.Outcome
import CborPath.Proofs.Sorting
import CborPath.Query.Eval
import CborPath.Query.Subexpression

/-!
# Resemblance

Two navigators resemble each other under a relation of their positions if related positions look
alike, compare alike, and lead to related positions.  An expression then evaluates alike at related
positions: to related nodes, to the same atomic value, or to the same failure.

Only the axes that an expression follows need to lead to related positions, and the root only if the
expression starts there.
-/

namespace CborPath

/-- Whether two outcomes are related results or the same failure. -/
inductive Alike {ε α β : Type} (R : α → β → Prop) : Except ε α → Except ε β → Prop
  | ok {x : α} {y : β} : R x y → Alike R (.ok x) (.ok y)
  | error (e : ε) : Alike R (.error e) (.error e)

/-- Computations are alike if their first steps are, and their next steps on related results. -/
theorem Alike.bind {ε α β γ δ : Type} {R : α → β → Prop} {S : γ → δ → Prop}
    {outcome : Except ε α} {outcome' : Except ε β} {next : α → Except ε γ}
    {next' : β → Except ε δ} (h : Alike R outcome outcome')
    (hNext : ∀ x y, R x y → Alike S (next x) (next' y)) :
    Alike S (outcome >>= next) (outcome' >>= next') := by
  cases h with
  | ok hRelated => exact hNext _ _ hRelated
  | error e => exact .error e

section Lists

variable {ε α β γ δ : Type} {R : α → β → Prop} {S : γ → δ → Prop} {xs : List α} {ys : List β}

theorem any_eq_of_forall₂ {f : α → Bool} {g : β → Bool} (h : List.Forall₂ R xs ys)
    (hSame : ∀ x y, R x y → f x = g y) :
    xs.any f = ys.any g := by
  induction h with
  | nil => rfl
  | cons hRelated _ ih => rw [List.any_cons, List.any_cons, hSame _ _ hRelated, ih]

theorem alike_keepNumbered {test : Nat → α → Except ε Bool} {test' : Nat → β → Except ε Bool}
    (h : List.Forall₂ R xs ys)
    (hTest : ∀ number x y, R x y → Alike Eq (test number x) (test' number y)) (number : Nat) :
    Alike (List.Forall₂ R) (keepNumbered test number xs) (keepNumbered test' number ys) := by
  induction h generalizing number with
  | nil => exact .ok .nil
  | cons hRelated _ ih =>
      rw [keepNumbered, keepNumbered]
      refine (hTest number _ _ hRelated).bind fun keep _ hKeep => ?_
      subst hKeep
      refine (ih (number + 1)).bind fun others others' hOthers => ?_
      cases keep with
      | true => exact .ok (.cons hRelated hOthers)
      | false => exact .ok hOthers

theorem alike_joinMap {f : α → Except ε (List γ)} {g : β → Except ε (List δ)}
    (h : List.Forall₂ R xs ys) (hEach : ∀ x y, R x y → Alike (List.Forall₂ S) (f x) (g y)) :
    Alike (List.Forall₂ S) (joinMap f xs) (joinMap g ys) := by
  induction h with
  | nil => exact .ok .nil
  | cons hRelated _ ih =>
      rw [joinMap, joinMap]
      refine (hEach _ _ hRelated).bind fun first first' hFirst => ?_
      exact ih.bind fun others others' hOthers => .ok (List.rel_append hFirst hOthers)

end Lists

/-- Whether two answers are related node-sets or the same atomic value. -/
inductive Answer.Resembles {P Q : Type} (R : P → Q → Prop) : Answer P → Answer Q → Prop
  | nodes {ps : List P} {qs : List Q} : List.Forall₂ R ps qs → Resembles R (.nodes ps) (.nodes qs)
  | boolean (b : Bool) : Resembles R (.boolean b) (.boolean b)
  | number (n : Binary64) : Resembles R (.number n) (.number n)
  | text (s : String) : Resembles R (.text s) (.text s)

/-- Whether related positions of two navigators look alike, compare alike, and lead to related
positions along the given axes, and to related roots if roots matter. -/
structure Navigator.Resembles {P Q : Type} (nav : Navigator P) (other : Navigator Q)
    (R : P → Q → Prop) (rooted : Bool) (along : Axis → Bool) : Prop where
  nodeType_eq : ∀ p q, R p q → nav.nodeType p = other.nodeType q
  localName_eq : ∀ p q, R p q → nav.localName p = other.localName q
  stringValue_eq : ∀ p q, R p q → nav.stringValue p = other.stringValue q
  atomic_eq : ∀ p q, R p q → nav.atomic p = other.atomic q
  same_eq : ∀ p q p' q', R p q → R p' q' → nav.same p p' = other.same q q'
  order_eq : ∀ p q p' q', R p q → R p' q' → nav.order p p' = other.order q q'
  root : rooted = true → ∀ p q, R p q → R (nav.root p) (other.root q)
  axisNodes : ∀ axis, along axis = true → ∀ p q, R p q →
    List.Forall₂ R (nav.axisNodes p axis) (other.axisNodes q axis)

/-- Whether the steps of an expression follow the given axes only, and start at the root only if they
may. -/
def Expr.leadsAlong (rooted : Bool) (along : Axis → Bool) : Expr → Bool
  | path absolute steps => (!absolute || rooted) && steps.all fun step => along step.axis
  | filter _ _ steps => steps.all fun step => along step.axis
  | _ => true

/-- Steps may follow every axis and start at the root. -/
theorem Expr.all_leadsAlong (exprs : List Expr) :
    exprs.all (Expr.leadsAlong true fun _ => true) = true := by
  rw [List.all_eq_true]
  intro expr _
  cases expr <;> simp [Expr.leadsAlong]

section Resembles

variable {P Q : Type} {nav : Navigator P} {other : Navigator Q} {R : P → Q → Prop} {rooted : Bool}
  {along : Axis → Bool} (h : nav.Resembles other R rooted along)

section Answers

variable {x x' : Answer P} {y y' : Answer Q}

theorem Answer.resembles_boolean {b c : Bool} (hEq : b = c) :
    (Answer.boolean b : Answer P).Resembles R (Answer.boolean c : Answer Q) :=
  hEq ▸ .boolean b

theorem Answer.resembles_number {n m : Binary64} (hEq : n = m) :
    (Answer.number n : Answer P).Resembles R (Answer.number m : Answer Q) :=
  hEq ▸ .number n

theorem Answer.resembles_text {s s' : String} (hEq : s = s') :
    (Answer.text s : Answer P).Resembles R (Answer.text s' : Answer Q) :=
  hEq ▸ .text s

theorem Answer.Resembles.toBoolean_eq (hAnswer : x.Resembles R y) :
    x.toBoolean = y.toBoolean := by
  cases hAnswer with
  | nodes hNodes =>
      cases hNodes with
      | nil => rfl
      | cons => rfl
  | boolean b => rfl
  | number n => rfl
  | text s => rfl

theorem Answer.Resembles.keeps_eq (hAnswer : x.Resembles R y) (position : Nat) :
    x.keeps position = y.keeps position := by
  cases hAnswer with
  | nodes hNodes => exact (Answer.Resembles.nodes hNodes).toBoolean_eq
  | boolean b => rfl
  | number n => rfl
  | text s => rfl

theorem Answer.Resembles.alike_nodes? (hAnswer : x.Resembles R y) :
    Alike (List.Forall₂ R) x.nodes? y.nodes? := by
  cases hAnswer with
  | nodes hNodes => exact .ok hNodes
  | boolean b => exact .error _
  | number n => exact .error _
  | text s => exact .error _

include h

theorem Answer.Resembles.toNumber_eq (hAnswer : x.Resembles R y) :
    x.toNumber nav = y.toNumber other := by
  cases hAnswer with
  | nodes hNodes =>
      cases hNodes with
      | nil => rfl
      | cons hRelated _ => exact congrArg Atomic.toNumber (h.atomic_eq _ _ hRelated)
  | boolean b => rfl
  | number n => rfl
  | text s => rfl

theorem Answer.Resembles.toText_eq (hAnswer : x.Resembles R y) :
    x.toText nav = y.toText other := by
  cases hAnswer with
  | nodes hNodes =>
      cases hNodes with
      | nil => rfl
      | cons hRelated _ => exact h.stringValue_eq _ _ hRelated
  | boolean b => rfl
  | number n => rfl
  | text s => rfl

theorem Answer.Resembles.compare_eq (op : Comparison) (hLeft : x.Resembles R y)
    (hRight : x'.Resembles R y') :
    Answer.compare nav op x x' = Answer.compare other op y y' := by
  have hAtomic : ∀ a p q, R p q →
      op.holds (nav.atomic p) a = op.holds (other.atomic q) a := by
    intro a p q hRelated
    rw [h.atomic_eq p q hRelated]
  have hAtomic' : ∀ a p q, R p q →
      op.holds a (nav.atomic p) = op.holds a (other.atomic q) := by
    intro a p q hRelated
    rw [h.atomic_eq p q hRelated]
  cases hLeft with
  | nodes hPs =>
      cases hRight with
      | nodes hQs =>
          refine any_eq_of_forall₂ hPs fun p q hRelated => ?_
          rw [h.atomic_eq p q hRelated]
          exact any_eq_of_forall₂ hQs (hAtomic' _)
      | boolean b =>
          cases hPs with
          | nil => rfl
          | cons hFirst hRest => exact any_eq_of_forall₂ (.cons hFirst hRest) (hAtomic _)
      | number n => exact any_eq_of_forall₂ hPs (hAtomic _)
      | text s => exact any_eq_of_forall₂ hPs (hAtomic _)
  | boolean b =>
      cases hRight with
      | nodes hQs =>
          cases hQs with
          | nil => rfl
          | cons hFirst hRest => exact any_eq_of_forall₂ (.cons hFirst hRest) (hAtomic' _)
      | boolean c => rfl
      | number n => rfl
      | text s => rfl
  | number n =>
      cases hRight with
      | nodes hQs => exact any_eq_of_forall₂ hQs (hAtomic' _)
      | boolean b => rfl
      | number m => rfl
      | text s => rfl
  | text s =>
      cases hRight with
      | nodes hQs => exact any_eq_of_forall₂ hQs (hAtomic' _)
      | boolean b => rfl
      | number n => rfl
      | text s' => rfl

end Answers

section Functions

theorem NullaryFunction.resembles_apply (f : NullaryFunction) (p : P) (q : Q)
    (position size : Nat) :
    (f.apply ⟨p, position, size⟩).Resembles R (f.apply ⟨q, position, size⟩) := by
  cases f with
  | last => exact .number _
  | position => exact .number _
  | alwaysTrue => exact .boolean _
  | alwaysFalse => exact .boolean _

theorem BinaryFunction.resembles_apply (f : BinaryFunction) (s t : String) :
    (f.apply s t : Answer P).Resembles R (f.apply s t : Answer Q) := by
  cases f with
  | contains => exact .boolean _
  | startsWith => exact .boolean _
  | endsWith => exact .boolean _
  | substringBefore => exact .text _
  | substringAfter => exact .text _

include h

theorem elementName_eq {p : P} {q : Q} (hRelated : R p q) :
    nav.elementName p = other.elementName q := by
  rw [Navigator.elementName, Navigator.elementName, h.nodeType_eq p q hRelated,
    h.localName_eq p q hRelated]

theorem NodeFunction.resembles_applyToContext (f : NodeFunction) {p : P} {q : Q}
    (hRelated : R p q) :
    (f.applyToContext nav p).Resembles R (f.applyToContext other q) := by
  have hName := elementName_eq h hRelated
  have hText := h.stringValue_eq p q hRelated
  have hNumber := congrArg Atomic.toNumber (h.atomic_eq p q hRelated)
  cases f with
  | name => exact Answer.resembles_text hName
  | localName => exact Answer.resembles_text hName
  | string => exact Answer.resembles_text hText
  | stringLength => exact Answer.resembles_number (congrArg textLength hText)
  | normalizeSpace => exact Answer.resembles_text (congrArg normalizedText hText)
  | number => exact Answer.resembles_number hNumber

variable {x : Answer P} {y : Answer Q}

theorem UnaryFunction.alike_apply (f : UnaryFunction) (hAnswer : x.Resembles R y) :
    Alike (Answer.Resembles R) (f.apply nav x) (f.apply other y) := by
  have hNodes := hAnswer.alike_nodes?
  have hBoolean := hAnswer.toBoolean_eq
  have hNumber := hAnswer.toNumber_eq h
  cases f with
  | count =>
      refine hNodes.bind fun ps qs hRelated => .ok (Answer.resembles_number ?_)
      rw [hRelated.length_eq]
  | sum =>
      refine hNodes.bind fun ps qs hRelated => .ok (Answer.resembles_number ?_)
      have hNumbers : List.Forall₂ Eq (ps.map nav.number) (qs.map other.number) :=
        List.rel_map (fun p q hPair => congrArg Atomic.toNumber (h.atomic_eq p q hPair)) hRelated
      rw [List.forall₂_eq_eq_eq] at hNumbers
      rw [hNumbers]
  | not => exact .ok (Answer.resembles_boolean (congrArg Bool.not hBoolean))
  | boolean => exact .ok (Answer.resembles_boolean hBoolean)
  | floor => exact .ok (Answer.resembles_number (congrArg Binary64.floor hNumber))
  | ceiling => exact .ok (Answer.resembles_number (congrArg Binary64.ceil hNumber))
  | round => exact .ok (Answer.resembles_number (congrArg Binary64.round hNumber))

theorem NodeFunction.alike_apply (f : NodeFunction) (hAnswer : x.Resembles R y) :
    Alike (Answer.Resembles R) (f.apply nav x) (f.apply other y) := by
  have hNodes := hAnswer.alike_nodes?
  have hText := hAnswer.toText_eq h
  have hNumber := hAnswer.toNumber_eq h
  have hName : ∀ ps qs, List.Forall₂ R ps qs →
      (ps.head?.map nav.elementName).getD "" = (qs.head?.map other.elementName).getD "" := by
    intro ps qs hRelated
    cases hRelated with
    | nil => rfl
    | cons hFirst _ => exact elementName_eq h hFirst
  cases f with
  | name => exact hNodes.bind fun ps qs hRelated => .ok (Answer.resembles_text (hName ps qs hRelated))
  | localName =>
      exact hNodes.bind fun ps qs hRelated => .ok (Answer.resembles_text (hName ps qs hRelated))
  | string => exact .ok (Answer.resembles_text hText)
  | stringLength => exact .ok (Answer.resembles_number (congrArg textLength hText))
  | normalizeSpace => exact .ok (Answer.resembles_text (congrArg normalizedText hText))
  | number => exact .ok (Answer.resembles_number hNumber)

end Functions

section Nodes

include h

theorem forall₂_dropRepeats {ps : List P} {qs : List Q} (hNodes : List.Forall₂ R ps qs) :
    List.Forall₂ R (nav.dropRepeats ps) (other.dropRepeats qs) := by
  induction hNodes with
  | nil => exact .nil
  | cons hFirst _ ih =>
      rw [Navigator.dropRepeats, Navigator.dropRepeats]
      generalize nav.dropRepeats _ = rest, other.dropRepeats _ = rest' at ih
      cases ih with
      | nil => exact .cons hFirst .nil
      | cons hSecond hRest =>
          simp only [h.same_eq _ _ _ _ hFirst hSecond]
          split
          · exact .cons hFirst hRest
          · exact .cons hFirst (.cons hSecond hRest)

theorem forall₂_documentOrder {ps : List P} {qs : List Q} (hNodes : List.Forall₂ R ps qs) :
    List.Forall₂ R (nav.documentOrder ps) (other.documentOrder qs) := by
  refine forall₂_dropRepeats h (forall₂_mergeSort hNodes fun p q p' q' hFirst hSecond => ?_)
  rw [h.order_eq p q p' q' hFirst hSecond]

theorem passes_eq {p : P} {q : Q} (hRelated : R p q) (test : NodeTest) :
    nav.passes p test = other.passes q test := by
  cases test <;>
    simp only [Navigator.passes, h.nodeType_eq p q hRelated, h.localName_eq p q hRelated]

end Nodes

section Evaluation

include h

-- Predicates are related by the related evaluation of each, which alone needs the hypothesis.
set_option linter.unusedSectionVars false in
mutual

/-- Expressions evaluate alike at related positions. -/
theorem Expr.alike_eval (expr : Expr)
    (hExpr : expr.subexpressions.all (Expr.leadsAlong rooted along) = true)
    (position size : Nat) {p : P} {q : Q} (hRelated : R p q) :
    Alike (Answer.Resembles R) (expr.eval nav ⟨p, position, size⟩)
      (expr.eval other ⟨q, position, size⟩) := by
  cases expr with
  | path absolute steps =>
      simp only [Expr.subexpressions, List.all_cons, Bool.and_eq_true, Expr.leadsAlong,
        Bool.or_eq_true, Bool.not_eq_true'] at hExpr
      obtain ⟨⟨hRoot, hAlong⟩, hSteps⟩ := hExpr
      have hStart : R (if absolute then nav.root p else p) (if absolute then other.root q else q) := by
        cases absolute with
        | true => exact h.root (hRoot.resolve_left nofun) p q hRelated
        | false => exact hRelated
      rw [Expr.eval, Expr.eval]
      exact (alike_evalSteps steps hSteps hAlong (.cons hStart .nil)).bind fun _ _ hNodes =>
        .ok (.nodes hNodes)
  | filter primary predicates steps =>
      simp only [Expr.subexpressions, List.all_cons, List.all_append, Bool.and_eq_true,
        Expr.leadsAlong] at hExpr
      obtain ⟨hAlong, ⟨hPrimary, hPredicates⟩, hSteps⟩ := hExpr
      rw [Expr.eval, Expr.eval]
      refine (primary.alike_eval hPrimary position size hRelated).bind fun _ _ hAnswer => ?_
      refine hAnswer.alike_nodes?.bind fun _ _ hCandidates => ?_
      refine (alike_evalPredicates predicates hPredicates hCandidates).bind fun _ _ hKept => ?_
      exact (alike_evalSteps steps hSteps hAlong hKept).bind fun _ _ hNodes => .ok (.nodes hNodes)
  | union left right =>
      simp only [Expr.subexpressions, List.all_cons, List.all_append, Bool.and_eq_true] at hExpr
      obtain ⟨-, hLeft, hRight⟩ := hExpr
      rw [Expr.eval, Expr.eval]
      refine (left.alike_eval hLeft position size hRelated).bind fun _ _ hAnswer => ?_
      refine hAnswer.alike_nodes?.bind fun _ _ hThese => ?_
      refine (right.alike_eval hRight position size hRelated).bind fun _ _ hOther => ?_
      refine hOther.alike_nodes?.bind fun _ _ hThose => .ok (.nodes ?_)
      exact forall₂_documentOrder h (List.rel_append hThese hThose)
  | or left right =>
      simp only [Expr.subexpressions, List.all_cons, List.all_append, Bool.and_eq_true] at hExpr
      obtain ⟨-, hLeft, hRight⟩ := hExpr
      rw [Expr.eval, Expr.eval]
      refine (left.alike_eval hLeft position size hRelated).bind fun x y hAnswer => ?_
      rw [hAnswer.toBoolean_eq]
      cases y.toBoolean with
      | true => exact .ok (.boolean true)
      | false =>
          exact (right.alike_eval hRight position size hRelated).bind fun _ _ hOther =>
            .ok (Answer.resembles_boolean hOther.toBoolean_eq)
  | and left right =>
      simp only [Expr.subexpressions, List.all_cons, List.all_append, Bool.and_eq_true] at hExpr
      obtain ⟨-, hLeft, hRight⟩ := hExpr
      rw [Expr.eval, Expr.eval]
      refine (left.alike_eval hLeft position size hRelated).bind fun x y hAnswer => ?_
      rw [hAnswer.toBoolean_eq]
      cases y.toBoolean with
      | true =>
          exact (right.alike_eval hRight position size hRelated).bind fun _ _ hOther =>
            .ok (Answer.resembles_boolean hOther.toBoolean_eq)
      | false => exact .ok (.boolean false)
  | compare op left right =>
      simp only [Expr.subexpressions, List.all_cons, List.all_append, Bool.and_eq_true] at hExpr
      obtain ⟨-, hLeft, hRight⟩ := hExpr
      rw [Expr.eval, Expr.eval]
      refine (left.alike_eval hLeft position size hRelated).bind fun _ _ hAnswer => ?_
      exact (right.alike_eval hRight position size hRelated).bind fun _ _ hOther =>
        .ok (Answer.resembles_boolean (hAnswer.compare_eq h op hOther))
  | arithmetic op left right =>
      simp only [Expr.subexpressions, List.all_cons, List.all_append, Bool.and_eq_true] at hExpr
      obtain ⟨-, hLeft, hRight⟩ := hExpr
      rw [Expr.eval, Expr.eval]
      refine (left.alike_eval hLeft position size hRelated).bind fun _ _ hAnswer => ?_
      refine (right.alike_eval hRight position size hRelated).bind fun _ _ hOther =>
        .ok (Answer.resembles_number ?_)
      rw [hAnswer.toNumber_eq h, hOther.toNumber_eq h]
  | negate operand =>
      simp only [Expr.subexpressions, List.all_cons, Bool.and_eq_true] at hExpr
      rw [Expr.eval, Expr.eval]
      exact (operand.alike_eval hExpr.2 position size hRelated).bind fun _ _ hAnswer =>
        .ok (Answer.resembles_number (congrArg Binary64.neg (hAnswer.toNumber_eq h)))
  | number n =>
      rw [Expr.eval, Expr.eval]
      exact .ok (.number n)
  | literal s =>
      rw [Expr.eval, Expr.eval]
      exact .ok (.text s)
  | nullary f =>
      rw [Expr.eval, Expr.eval]
      exact .ok (f.resembles_apply p q position size)
  | unary f argument =>
      simp only [Expr.subexpressions, List.all_cons, Bool.and_eq_true] at hExpr
      rw [Expr.eval, Expr.eval]
      exact (argument.alike_eval hExpr.2 position size hRelated).bind fun _ _ hAnswer =>
        f.alike_apply h hAnswer
  | ofContext f =>
      rw [Expr.eval, Expr.eval]
      exact .ok (f.resembles_applyToContext h hRelated)
  | ofArgument f argument =>
      simp only [Expr.subexpressions, List.all_cons, Bool.and_eq_true] at hExpr
      rw [Expr.eval, Expr.eval]
      exact (argument.alike_eval hExpr.2 position size hRelated).bind fun _ _ hAnswer =>
        f.alike_apply h hAnswer
  | binary f first second =>
      simp only [Expr.subexpressions, List.all_cons, List.all_append, Bool.and_eq_true] at hExpr
      obtain ⟨-, hFirst, hSecond⟩ := hExpr
      rw [Expr.eval, Expr.eval]
      refine (first.alike_eval hFirst position size hRelated).bind fun _ _ hAnswer => ?_
      refine (second.alike_eval hSecond position size hRelated).bind fun _ _ hOther => .ok ?_
      rw [hAnswer.toText_eq h, hOther.toText_eq h]
      exact f.resembles_apply _ _
  | substringFrom text start =>
      simp only [Expr.subexpressions, List.all_cons, List.all_append, Bool.and_eq_true] at hExpr
      obtain ⟨-, hText, hStart⟩ := hExpr
      rw [Expr.eval, Expr.eval]
      refine (text.alike_eval hText position size hRelated).bind fun _ _ hAnswer => ?_
      refine (start.alike_eval hStart position size hRelated).bind fun _ _ hFrom =>
        .ok (Answer.resembles_text ?_)
      rw [hAnswer.toText_eq h, hFrom.toNumber_eq h]
  | substring text start length =>
      simp only [Expr.subexpressions, List.all_cons, List.all_append, Bool.and_eq_true] at hExpr
      obtain ⟨-, ⟨hText, hStart⟩, hLength⟩ := hExpr
      rw [Expr.eval, Expr.eval]
      refine (text.alike_eval hText position size hRelated).bind fun _ _ hAnswer => ?_
      refine (start.alike_eval hStart position size hRelated).bind fun _ _ hFrom => ?_
      refine (length.alike_eval hLength position size hRelated).bind fun _ _ hCount =>
        .ok (Answer.resembles_text ?_)
      rw [hAnswer.toText_eq h, hFrom.toNumber_eq h, hCount.toNumber_eq h]
  | translate text source target =>
      simp only [Expr.subexpressions, List.all_cons, List.all_append, Bool.and_eq_true] at hExpr
      obtain ⟨-, ⟨hText, hSource⟩, hTarget⟩ := hExpr
      rw [Expr.eval, Expr.eval]
      refine (text.alike_eval hText position size hRelated).bind fun _ _ hAnswer => ?_
      refine (source.alike_eval hSource position size hRelated).bind fun _ _ hThese => ?_
      refine (target.alike_eval hTarget position size hRelated).bind fun _ _ hThose =>
        .ok (Answer.resembles_text ?_)
      rw [hAnswer.toText_eq h, hThese.toText_eq h, hThose.toText_eq h]
  | concat first second others =>
      simp only [Expr.subexpressions, List.all_cons, List.all_append, Bool.and_eq_true] at hExpr
      obtain ⟨-, ⟨hFirst, hSecond⟩, hOthers⟩ := hExpr
      rw [Expr.eval, Expr.eval]
      refine (first.alike_eval hFirst position size hRelated).bind fun _ _ hAnswer => ?_
      refine (second.alike_eval hSecond position size hRelated).bind fun _ _ hOther => ?_
      refine (alike_evalTexts others hOthers position size hRelated).bind fun _ _ hRest =>
        .ok (Answer.resembles_text ?_)
      rw [hAnswer.toText_eq h, hOther.toText_eq h, hRest]

theorem alike_evalTexts (exprs : List Expr)
    (hExprs : (listSubexpressions exprs).all (Expr.leadsAlong rooted along) = true)
    (position size : Nat) {p : P} {q : Q} (hRelated : R p q) :
    Alike Eq (evalTexts nav ⟨p, position, size⟩ exprs)
      (evalTexts other ⟨q, position, size⟩ exprs) := by
  cases exprs with
  | nil =>
      rw [evalTexts, evalTexts]
      exact .ok rfl
  | cons expr rest =>
      simp only [listSubexpressions, List.all_append, Bool.and_eq_true] at hExprs
      rw [evalTexts, evalTexts]
      refine (expr.alike_eval hExprs.1 position size hRelated).bind fun _ _ hAnswer => ?_
      refine (alike_evalTexts rest hExprs.2 position size hRelated).bind fun _ _ hRest => .ok ?_
      rw [hAnswer.toText_eq h, hRest]

theorem alike_evalPredicates (predicates : List Expr)
    (hExprs : (listSubexpressions predicates).all (Expr.leadsAlong rooted along) = true)
    {ps : List P} {qs : List Q} (hNodes : List.Forall₂ R ps qs) :
    Alike (List.Forall₂ R) (evalPredicates nav predicates ps)
      (evalPredicates other predicates qs) := by
  cases predicates with
  | nil =>
      rw [evalPredicates, evalPredicates]
      exact .ok hNodes
  | cons predicate rest =>
      simp only [listSubexpressions, List.all_append, Bool.and_eq_true] at hExprs
      rw [evalPredicates, evalPredicates, hNodes.length_eq]
      refine (alike_keepNumbered hNodes (fun position p q hRelated => ?_) 1).bind ?_
      · exact (predicate.alike_eval hExprs.1 position _ hRelated).bind fun _ _ hAnswer =>
          .ok (hAnswer.keeps_eq position)
      · exact fun _ _ hKept => alike_evalPredicates rest hExprs.2 hKept

theorem Step.alike_select (step : Step)
    (hExprs : step.subexpressions.all (Expr.leadsAlong rooted along) = true)
    (hAlong : along step.axis = true) {p : P} {q : Q} (hRelated : R p q) :
    Alike (List.Forall₂ R) (step.select nav p) (step.select other q) := by
  cases step with
  | mk axis test predicates =>
      rw [Step.subexpressions] at hExprs
      rw [Step.select, Step.select]
      have hCandidates := List.rel_filter
        (p := (nav.passes · test)) (q := (other.passes · test))
        (fun p q hPair => Iff.of_eq (congrArg (· = true) (passes_eq h hPair test)))
        (h.axisNodes axis hAlong p q hRelated)
      refine (alike_evalPredicates predicates hExprs hCandidates).bind fun _ _ hSelected => .ok ?_
      split
      · exact List.rel_reverse hSelected
      · exact hSelected

theorem alike_evalSteps (steps : List Step)
    (hExprs : (stepsSubexpressions steps).all (Expr.leadsAlong rooted along) = true)
    (hAlong : (steps.all fun step => along step.axis) = true) {ps : List P} {qs : List Q}
    (hNodes : List.Forall₂ R ps qs) :
    Alike (List.Forall₂ R) (evalSteps nav steps ps) (evalSteps other steps qs) := by
  cases steps with
  | nil =>
      rw [evalSteps, evalSteps]
      exact .ok hNodes
  | cons step rest =>
      simp only [stepsSubexpressions, List.all_append, Bool.and_eq_true] at hExprs
      simp only [List.all_cons, Bool.and_eq_true] at hAlong
      rw [evalSteps, evalSteps, hNodes.length_eq]
      refine (alike_joinMap (S := R) hNodes fun p q hRelated => ?_).bind fun found _ hFound => ?_
      · exact step.alike_select hExprs.1 hAlong.1 hRelated
      · refine alike_evalSteps rest hExprs.2 hAlong.2 ?_
        split
        · exact hFound
        · exact forall₂_documentOrder h hFound

end

end Evaluation

end Resembles

end CborPath
