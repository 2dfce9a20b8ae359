import CborPath.Proofs.Query.Rewording
import CborPath.Proofs.Query.Unions

/-!
# Numeric predicates

A predicate that is a number keeps the node at that position.  A step counts its nodes in proximity
order, so outwards from the context node on the axes that lead back, and a filter counts them in
document order.  No node stands at a position beyond the last, before the first or between two.
-/

namespace CborPath

/-- The query `axis::test[predicate]`. -/
def Expr.ofStep (axis : Axis) (test : NodeTest) (predicate : Expr) : Expr :=
  .path false [.mk axis test [predicate]]

/-- The query `(axis::test)[predicate]`. -/
def Expr.ofMatches (axis : Axis) (test : NodeTest) (predicate : Expr) : Expr :=
  .filter (.path false [.mk axis test []]) [predicate] []

/-- Whether an expression is the same number in every context. -/
def Expr.IsAlways {P : Type} (nav : Navigator P) (expr : Expr) (x : Binary64) : Prop :=
  ∀ context : Context P, expr.eval nav context = .ok (.number x)

/-- A list in the order of an axis, brought into document order. -/
def Axis.inDocumentOrder {α : Type} (axis : Axis) (xs : List α) : List α :=
  if axis.isReverse then xs.reverse else xs

theorem Axis.length_inDocumentOrder {α : Type} (axis : Axis) (xs : List α) :
    (axis.inDocumentOrder xs).length = xs.length := by
  rw [inDocumentOrder]
  split <;> simp

theorem Axis.inDocumentOrder_map {α β : Type} (axis : Axis) (f : α → β) (xs : List α) :
    axis.inDocumentOrder (xs.map f) = (axis.inDocumentOrder xs).map f := by
  rw [inDocumentOrder, inDocumentOrder]
  split <;> simp

/-- At most one element is in any order. -/
theorem Axis.inDocumentOrder_toList {α : Type} (axis : Axis) (x? : Option α) :
    axis.inDocumentOrder x?.toList = x?.toList := by
  rw [inDocumentOrder]
  cases x? <;> simp

/-- On an axis that leads back, document order counts from the other end. -/
theorem Axis.getElem?_inDocumentOrder {α : Type} {axis : Axis} (hReverse : axis.isReverse = true)
    {xs : List α} {k : Nat} (hLow : 1 ≤ k) (hHigh : k ≤ xs.length) :
    (axis.inDocumentOrder xs)[xs.length + 1 - k - 1]? = xs[k - 1]? := by
  have hIndex : xs.length - 1 - (xs.length + 1 - k - 1) = k - 1 := by omega
  rw [inDocumentOrder, if_pos hReverse, List.getElem?_reverse (by omega), hIndex]

theorem Axis.head?_inDocumentOrder {α : Type} {axis : Axis} (hReverse : axis.isReverse = true)
    (xs : List α) :
    (axis.inDocumentOrder xs).head? = xs.getLast? := by
  rw [inDocumentOrder, if_pos hReverse, List.head?_reverse]

section Keeping

variable {ε α : Type} {keep : Nat → Bool} {xs : List α} {start : Nat}

theorem keepNumbered_eq_nil
    (h : ∀ number, start ≤ number → number < start + xs.length → keep number = false) :
    keepNumbered (fun number _ => (.ok (keep number) : Except ε Bool)) start xs = .ok [] := by
  induction xs generalizing start with
  | nil => rfl
  | cons x xs ih =>
      rw [List.length_cons] at h
      have hRest : keepNumbered (fun number _ => (.ok (keep number) : Except ε Bool)) (start + 1)
          xs = .ok [] :=
        ih fun number hLow hHigh => h number (by omega) (by omega)
      rw [keepNumbered, hRest, h start (Nat.le_refl _) (by omega)]
      rfl

/-- A test for one number keeps the element with that number. -/
theorem keepNumbered_eq_getElem? {k : Nat} (hStart : start ≤ k)
    (h : ∀ number, start ≤ number → number < start + xs.length → keep number = decide (number = k)) :
    keepNumbered (fun number _ => (.ok (keep number) : Except ε Bool)) start xs =
      .ok xs[k - start]?.toList := by
  induction xs generalizing start with
  | nil => rfl
  | cons x xs ih =>
      rw [List.length_cons] at h
      rw [keepNumbered, h start (Nat.le_refl _) (by omega)]
      rcases Nat.eq_or_lt_of_le hStart with rfl | hLater
      · have hRest : keepNumbered (fun number _ => (.ok (keep number) : Except ε Bool)) (start + 1)
            xs = .ok [] := by
          refine keepNumbered_eq_nil fun number hLow hHigh => ?_
          rw [h number (by omega) (by omega), decide_eq_false_iff_not]
          omega
        rw [hRest, Nat.sub_self, decide_eq_true rfl]
        rfl
      · have hRest := ih hLater fun number hLow hHigh => h number (by omega) (by omega)
        have hIndex : k - start = k - (start + 1) + 1 := by omega
        rw [hRest, hIndex, List.getElem?_cons_succ, decide_eq_false (by omega)]
        rfl

end Keeping

section Predicates

variable {P : Type} (nav : Navigator P) {predicate : Expr} {x : Binary64} {nodes : List P} {k : Nat}

/-- A predicate that is a number keeps the nodes whose positions equal it. -/
theorem evalPredicates_singleton_of_number
    (h : ∀ node position, predicate.eval nav ⟨node, position, nodes.length⟩ = .ok (.number x)) :
    evalPredicates nav [predicate] nodes =
      keepNumbered (fun position _ => .ok (x.equals (Binary64.ofNat position))) 1 nodes := by
  rw [evalPredicates]
  simp only [h]
  show keepNumbered (fun position _ => .ok (x.equals (Binary64.ofNat position))) 1 nodes >>=
    evalPredicates nav [] = _
  cases keepNumbered (fun position _ => .ok (x.equals (Binary64.ofNat position))) 1 nodes with
  | error e => rfl
  | ok kept =>
      show evalPredicates nav [] kept = .ok kept
      rw [evalPredicates]

variable (hSmall : nodes.length < 2 ^ 53)
include hSmall

theorem evalPredicates_eq_getElem? (hLow : 1 ≤ k) (hHigh : k < 2 ^ 53)
    (h : ∀ node position,
      predicate.eval nav ⟨node, position, nodes.length⟩ = .ok (.number (Binary64.ofNat k))) :
    evalPredicates nav [predicate] nodes = .ok nodes[k - 1]?.toList := by
  rw [evalPredicates_singleton_of_number nav h]
  refine keepNumbered_eq_getElem? hLow fun number _ hBound => ?_
  rw [Bool.eq_iff_iff, decide_eq_true_eq, Binary64.equals_ofNat_iff hHigh (by omega), eq_comm]

theorem evalPredicates_eq_nil
    (hOutside : (Binary64.ofNat nodes.length).less x = true ∨ x.less (Binary64.ofNat 1) = true ∨
      x.isWhole = false)
    (h : ∀ node position, predicate.eval nav ⟨node, position, nodes.length⟩ = .ok (.number x)) :
    evalPredicates nav [predicate] nodes = .ok [] := by
  rw [evalPredicates_singleton_of_number nav h]
  refine keepNumbered_eq_nil fun number hLow hBound => ?_
  exact Binary64.equals_ofNat_eq_false hSmall hLow (by omega) hOutside

/-- The predicate `last()` keeps the last node. -/
theorem evalPredicates_last :
    evalPredicates nav [.nullary .last] nodes = .ok nodes.getLast?.toList := by
  rcases Nat.eq_zero_or_pos nodes.length with hEmpty | hSome
  · rw [List.length_eq_zero_iff.1 hEmpty]
    rfl
  · rw [List.getLast?_eq_getElem?]
    refine evalPredicates_eq_getElem? nav hSmall hSome hSmall fun node position => ?_
    rw [Expr.eval]
    rfl

end Predicates

namespace Tree

/-- The places on an axis whose nodes pass a test, in the order of the axis. -/
def matchingPlaces {P : Type} (t : Tree) (nav : Navigator P) (f : Nat → P) (n : Nat) (axis : Axis)
    (test : NodeTest) : List Nat :=
  (t.axisPlaces n axis).filter fun m => nav.passes (f m) test

/-- The matching places fall if the axis leads back, and rise otherwise. -/
theorem pairwise_matchingPlaces {P : Type} (t : Tree) (nav : Navigator P) (f : Nat → P) (n : Nat)
    (axis : Axis) (test : NodeTest) :
    if axis.isReverse then (t.matchingPlaces nav f n axis test).Pairwise (· > ·)
    else (t.matchingPlaces nav f n axis test).Pairwise (· < ·) := by
  have hOrder := pairwise_axisPlaces t n axis
  split
  · rw [if_pos ‹_›] at hOrder
    exact hOrder.filter _
  · rw [if_neg ‹_›] at hOrder
    exact hOrder.filter _

section Evaluation

variable {P : Type} {t : Tree} {all : List Outline} {f : Nat → P} {nav : Navigator P}
  {context : Context P} {n : Nat}
  (h : t.Depicts all) (hPlaces : t.navigator.Places nav f) (hId : n < t.size)
  (hContext : context.node = f n) (axis : Axis) (test : NodeTest)
include h hPlaces hId hContext

/-- A step numbers its nodes in the order of the axis. -/
theorem Depicts.eval_path_step (predicates : List Expr) :
    (Expr.path false [.mk axis test predicates]).eval nav context =
      evalPredicates nav predicates ((t.matchingPlaces nav f n axis test).map f) >>= fun kept =>
        .ok (.nodes (axis.inDocumentOrder kept)) := by
  have hMatches : (nav.axisNodes (f n) axis).filter (nav.passes · test) =
      (t.matchingPlaces nav f n axis test).map f := by
    rw [h.axisNodes_eq hPlaces hId axis, List.filter_map]
    rfl
  have hStart : (if false = true then nav.root context.node else context.node) = f n := hContext
  rw [Expr.eval_eq_nodesAt nav context rfl, Expr.nodesAt_path, hStart, evalSteps_singleton,
    Step.select, hMatches]
  simp only [bind_assoc]
  rfl

variable {predicate : Expr}

/-- Where a predicate keeps one node at most, the order of the axis does not matter. -/
theorem Depicts.eval_ofStep_of_kept {kept? : Option P}
    (hKept : evalPredicates nav [predicate] ((t.matchingPlaces nav f n axis test).map f) =
      .ok kept?.toList) :
    (Expr.ofStep axis test predicate).eval nav context = .ok (.nodes kept?.toList) := by
  rw [Expr.ofStep, h.eval_path_step hPlaces hId hContext, hKept]
  show Except.ok (Answer.nodes (axis.inDocumentOrder kept?.toList)) = _
  rw [axis.inDocumentOrder_toList]

/-- A filter numbers its nodes in document order. -/
theorem Depicts.eval_ofMatches :
    (Expr.ofMatches axis test predicate).eval nav context =
      evalPredicates nav [predicate]
        ((axis.inDocumentOrder (t.matchingPlaces nav f n axis test)).map f) >>= fun kept =>
          .ok (.nodes kept) := by
  have hPrimary := h.eval_path_step hPlaces hId hContext axis test []
  rw [evalPredicates] at hPrimary
  have hNodes := (Expr.nodesAt_eq_ok_iff nav context).2 hPrimary
  rw [Axis.inDocumentOrder_map] at hNodes
  rw [Expr.ofMatches, Expr.eval_eq_nodesAt nav context rfl, Expr.nodesAt_filter, hNodes]
  simp only [bind_evalSteps_nil]
  rfl

variable (hSmall : (t.matchingPlaces nav f n axis test).length < 2 ^ 53)
include hSmall

/-- A step with a number keeps the node at that position in the order of the axis, and a filter the
one at that position in document order. -/
theorem Depicts.eval_number {k : Nat} (hLow : 1 ≤ k) (hHigh : k < 2 ^ 53)
    (hNumber : predicate.IsAlways nav (Binary64.ofNat k)) :
    (Expr.ofStep axis test predicate).eval nav context =
        .ok (.nodes ((t.matchingPlaces nav f n axis test)[k - 1]?.map f).toList) ∧
      (Expr.ofMatches axis test predicate).eval nav context =
        .ok (.nodes
          ((axis.inDocumentOrder (t.matchingPlaces nav f n axis test))[k - 1]?.map f).toList) := by
  have hKept : ∀ places : List Nat, places.length < 2 ^ 53 →
      evalPredicates nav [predicate] (places.map f) = .ok (places[k - 1]?.map f).toList := by
    intro places hLength
    rw [← List.getElem?_map]
    refine evalPredicates_eq_getElem? nav ?_ hLow hHigh fun node position => hNumber _
    rwa [List.length_map]
  constructor
  · exact h.eval_ofStep_of_kept hPlaces hId hContext axis test (hKept _ hSmall)
  · have hLength := (axis.length_inDocumentOrder (t.matchingPlaces nav f n axis test)).trans_lt hSmall
    rw [h.eval_ofMatches hPlaces hId hContext, hKept _ hLength]
    rfl

/-- A number that is not the position of a node keeps none. -/
theorem Depicts.eval_number_outside {x : Binary64}
    (hOutside : (Binary64.ofNat (t.matchingPlaces nav f n axis test).length).less x = true ∨
      x.less (Binary64.ofNat 1) = true ∨ x.isWhole = false)
    (hNumber : predicate.IsAlways nav x) :
    (Expr.ofStep axis test predicate).eval nav context = .ok (.nodes []) ∧
      (Expr.ofMatches axis test predicate).eval nav context = .ok (.nodes []) := by
  have hKept : ∀ places : List Nat, places.length = (t.matchingPlaces nav f n axis test).length →
      evalPredicates nav [predicate] (places.map f) = .ok [] := by
    intro places hLength
    refine evalPredicates_eq_nil nav ?_ ?_ fun node position => hNumber _
    · rwa [List.length_map, hLength]
    · rwa [List.length_map, hLength]
  have hNone : evalPredicates nav [predicate] ((t.matchingPlaces nav f n axis test).map f) =
      .ok (none : Option P).toList :=
    hKept _ rfl
  constructor
  · exact h.eval_ofStep_of_kept hPlaces hId hContext axis test hNone
  · rw [h.eval_ofMatches hPlaces hId hContext, hKept _ (axis.length_inDocumentOrder _)]
    rfl

/-- The last node of a step is the last one in the order of the axis. -/
theorem Depicts.eval_last :
    (Expr.ofStep axis test (.nullary .last)).eval nav context =
      .ok (.nodes ((t.matchingPlaces nav f n axis test).getLast?.map f).toList) := by
  have hKept : evalPredicates nav [.nullary .last] ((t.matchingPlaces nav f n axis test).map f) =
      .ok ((t.matchingPlaces nav f n axis test).getLast?.map f).toList := by
    rw [← List.getLast?_map]
    exact evalPredicates_last nav (by rwa [List.length_map])
  exact h.eval_ofStep_of_kept hPlaces hId hContext axis test hKept

end Evaluation

/-- Numeric predicates in a tree that has been built.  They may be written out as comparisons with the
position wherever they stand.  A step with a whole number from one to the number of its matches keeps
the match at that position in the order of the axis, which falls on the axes that lead back, and a
filter keeps the one at that position in document order.  So on an axis that leads back they count from
opposite ends, and the last match of the step is the first in document order.  Any other number keeps
nothing. -/
theorem eval_numericPredicate_of_build {value : Value} {t : Tree} (hBuild : build value = .ok t)
    {P : Type} {nav : Navigator P} {f : Nat → P} (hPlaces : t.navigator.Places nav f) {n : Nat}
    (hId : n < t.size) {context : Context P} (hContext : context.node = f n) :
    (∀ expr other : Expr, expr.Rewords other → expr.eval nav context = other.eval nav context) ∧
    ∀ (axis : Axis) (test : NodeTest) (places : List Nat),
      places = t.matchingPlaces nav f n axis test → places.length < 2 ^ 53 →
      (if axis.isReverse then places.Pairwise (· > ·) else places.Pairwise (· < ·)) ∧
      (∀ (k : Nat) (predicate : Expr), 1 ≤ k → k ≤ places.length →
        predicate.IsAlways nav (Binary64.ofNat k) →
        (∃ m, places[k - 1]? = some m ∧
          (Expr.ofStep axis test predicate).eval nav context = .ok (.nodes [f m])) ∧
        ∃ m, (axis.inDocumentOrder places)[k - 1]? = some m ∧
          (Expr.ofMatches axis test predicate).eval nav context = .ok (.nodes [f m])) ∧
      (axis.isReverse = true →
        (∀ (k : Nat) (predicate mirrored : Expr), 1 ≤ k → k ≤ places.length →
          predicate.IsAlways nav (Binary64.ofNat k) →
          mirrored.IsAlways nav (Binary64.ofNat (places.length + 1 - k)) →
          (Expr.ofStep axis test predicate).eval nav context =
            (Expr.ofMatches axis test mirrored).eval nav context) ∧
        (Expr.ofStep axis test (.nullary .last)).eval nav context =
          .ok (.nodes ((axis.inDocumentOrder places).head?.map f).toList)) ∧
      ∀ (x : Binary64) (predicate : Expr),
        ((Binary64.ofNat places.length).less x = true ∨ x.less (Binary64.ofNat 1) = true ∨
          x.isWhole = false) → predicate.IsAlways nav x →
        (Expr.ofStep axis test predicate).eval nav context = .ok (.nodes []) ∧
          (Expr.ofMatches axis test predicate).eval nav context = .ok (.nodes []) := by
  obtain ⟨all, -, h⟩ := exists_depicts_of_build_eq_ok hBuild
  refine ⟨fun expr other hRewords => hRewords.eval_eq nav context, ?_⟩
  rintro axis test _ rfl hSmall
  refine ⟨t.pairwise_matchingPlaces nav f n axis test, fun k predicate hLow hHigh hAlways => ?_,
    fun hReverse => ⟨fun k predicate mirrored hLow hHigh hAlways hMirrored => ?_, ?_⟩,
    fun x predicate => h.eval_number_outside hPlaces hId hContext axis test hSmall⟩
  · obtain ⟨hStep, hMatches⟩ := h.eval_number hPlaces hId hContext axis test hSmall hLow (by omega)
      hAlways
    have hLength := axis.length_inDocumentOrder (t.matchingPlaces nav f n axis test)
    rw [List.getElem?_eq_getElem (by omega)] at hStep hMatches
    exact ⟨⟨_, List.getElem?_eq_getElem (by omega), hStep⟩,
      ⟨_, List.getElem?_eq_getElem (by omega), hMatches⟩⟩
  · rw [(h.eval_number hPlaces hId hContext axis test hSmall hLow (by omega) hAlways).1,
      (h.eval_number hPlaces hId hContext axis test hSmall (by omega) (by omega) hMirrored).2,
      Axis.getElem?_inDocumentOrder hReverse hLow hHigh]
  · rw [Axis.head?_inDocumentOrder hReverse]
    exact h.eval_last hPlaces hId hContext axis test hSmall

theorem eval_numericPredicate_of_build_pair :
    build (.sequence [.scalar .null, .scalar (.boolean true)]) = .ok pair ∧
      pair.navigator.Places pair.navigator id ∧ 4 < pair.size ∧
      (Expr.ofStep .parent .anyNode (.number (.ofNat 1))).Rewords
        (Expr.ofStep .parent .anyNode (Expr.number (.ofNat 1)).atPosition) ∧
      (Expr.ofStep .parent .anyNode (.number (.ofNat 1))).eval pair.navigator ⟨4, 1, 1⟩ =
        (Expr.ofStep .parent .anyNode (Expr.number (.ofNat 1)).atPosition).eval pair.navigator
          ⟨4, 1, 1⟩ ∧
      pair.matchingPlaces pair.navigator id 4 .ancestor .anyNode = [3, 0] ∧
      (Expr.ofStep .ancestor .anyNode (.number (.ofNat 1))).eval pair.navigator ⟨4, 1, 1⟩ =
        .ok (.nodes [3]) ∧
      (Expr.ofMatches .ancestor .anyNode (.number (.ofNat 1))).eval pair.navigator ⟨4, 1, 1⟩ =
        .ok (.nodes [0]) ∧
      (Expr.ofStep .ancestor .anyNode (.nullary .last)).eval pair.navigator ⟨4, 1, 1⟩ =
        .ok (.nodes [0]) ∧
      (Expr.ofStep .ancestor .anyNode (.number .nan)).eval pair.navigator ⟨4, 1, 1⟩ =
        .ok (.nodes []) := by
  have hAlways : ∀ x, (Expr.number x).IsAlways pair.navigator x := by
    intro x context
    rw [Expr.eval]
  have hRewords : (Expr.ofStep .parent .anyNode (.number (.ofNat 1))).Rewords
      (Expr.ofStep .parent .anyNode (Expr.number (.ofNat 1)).atPosition) :=
    .path false (.cons .parent .anyNode (.position (.same _) rfl .nil) .nil)
  have hMatches : pair.matchingPlaces pair.navigator id 4 .ancestor .anyNode = [3, 0] := by
    decide
  obtain ⟨hSame, hAll⟩ := eval_numericPredicate_of_build build_pair pair.navigator.places_self
    (show 4 < pair.size by decide) (show (Context.mk 4 1 1).node = id 4 from rfl)
  obtain ⟨-, hNumber, hReverse, hOutside⟩ :=
    hAll .ancestor .anyNode [3, 0] hMatches.symm (by decide)
  obtain ⟨⟨first, hFirst, hStep⟩, ⟨second, hSecond, hFilter⟩⟩ :=
    hNumber 1 _ (by decide) (by decide) (hAlways _)
  cases hFirst
  cases hSecond
  exact ⟨build_pair, pair.navigator.places_self, by decide, hRewords, hSame _ _ hRewords, hMatches,
    hStep, hFilter, (hReverse rfl).2, (hOutside .nan _ (.inr (.inr rfl)) (hAlways _)).1⟩

end Tree

end CborPath
