import CborPath.Proofs.Query.PositionFree
import CborPath.Proofs.Query.Positions
import CborPath.Proofs.Query.Rendering

/-!
# Descendants

Two slashes find everything below.  The children of the nodes at and below a node are the nodes below
it, so the two steps that the slashes stand for lead where the descendant axis leads, from any node-set.
Predicates that are position-free may be asked after both, and then make no difference either; a number
would count the children of each node on their own.
-/

namespace CborPath

theorem Axis.mem_inDocumentOrder_iff {α : Type} (axis : Axis) (xs : List α) (x : α) :
    x ∈ axis.inDocumentOrder xs ↔ x ∈ xs :=
  mem_turned_iff axis.isReverse xs x

namespace Parse

variable {nested : Reader Expr}

/-- Two slashes and a node test are read as the two steps that they stand for. -/
theorem reads_descendants {test : NodeTest} (hTest : test.isWritable = true) :
    Reads (pathExpr nested) ('/' :: '/' :: test.written)
      (.path true [.descendantOrSelf, .mk .child test []]) := by
  intro rest hRest
  have hEnds : EndsTest rest := (hRest.mono (by decide)).endsTest
  have hNone : predicates nested rest = .ok ([], rest) := by
    rw [predicates_of_head?_ne (head?_ne_bracket hRest.stepEnds), skipSpace_of_closers hRest]
  have hTail : pathTail nested rest = .ok ([], rest) := by
    rw [pathTail_of_head?_ne (head?_ne_slash hRest), skipSpace_of_closers hRest]
  have hStep : step nested (test.written ++ rest) = .ok (.mk .child test [], rest) := by
    rw [step_child hTest hEnds]
    exact bind_eq_ok hNone rfl
  have hPath : relativePath nested (test.written ++ rest) = .ok ([.mk .child test []], rest) :=
    bind_eq_ok hStep (bind_eq_ok hTail rfl)
  show locationPath nested ('/' :: '/' :: (test.written ++ rest)) = _
  exact bind_eq_ok hPath rfl

end Parse

namespace Tree

section Places

variable {t : Tree} {all : List Outline} (h : t.Depicts all)
include h

/-- What is below a node are the children of what is at and below it. -/
theorem Depicts.mem_descendant_iff {n : Nat} (hId : n < t.size) (m : Nat) :
    m ∈ t.axisPlaces n .descendant ↔
      ∃ p ∈ t.axisPlaces n .descendantOrSelf, m ∈ t.axisPlaces p .child := by
  have hOwn := lt_stop hId
  have hUnder : ∀ inner, t.Under inner n ↔ n ≤ inner ∧ inner < t.stop n := fun _ => h.under_iff hId
  simp only [axisPlaces, List.mem_range'_1, List.mem_filter, List.mem_range, decide_eq_true_eq]
  constructor
  · rintro ⟨hLow, hHigh⟩
    have hBelow : t.Under m n := (hUnder m).2 ⟨by omega, by omega⟩
    rcases hBelow.cases_head with rfl | ⟨p, hParent, hAbove⟩
    · omega
    · have hBounds := (hUnder p).1 hAbove
      exact ⟨p, ⟨hBounds.1, by omega⟩, h.lt_size_of_parent_eq hParent, hParent⟩
  · rintro ⟨p, ⟨hLow, hHigh⟩, -, hParent⟩
    have hAbove : t.Under p n := (hUnder p).2 ⟨hLow, by omega⟩
    have hBounds := (hUnder m).1 (.head hParent hAbove)
    obtain ⟨_, _, _, hSited⟩ := h.exists_sited_of_parent_eq hParent
    have := hSited.parent_lt
    omega

end Places

section Evaluation

variable {P : Type} {t : Tree} {all : List Outline} {f : Nat → P} {nav : Navigator P}
  (h : t.Depicts all) (hPlaces : t.navigator.Places nav f)
include h hPlaces

/-- A step without predicates selects all matching places. -/
theorem Depicts.select_eq_matchingPlaces {n : Nat} (hId : n < t.size) (axis : Axis)
    (test : NodeTest) :
    (Step.mk axis test []).select nav (f n) =
      .ok ((axis.inDocumentOrder (t.matchingPlaces nav f n axis test)).map f) := by
  have hMatches : (nav.axisNodes (f n) axis).filter (nav.passes · test) =
      (t.matchingPlaces nav f n axis test).map f := by
    rw [h.axisNodes_eq hPlaces hId axis, List.filter_map]
    rfl
  rw [Step.select, hMatches, evalPredicates, ← Axis.inDocumentOrder_map]
  rfl

/-- A step without predicates leads from a node-set to all that match from any of its nodes. -/
theorem Depicts.exists_evalSteps_eq_ok (axis : Axis) (test : NodeTest) {places : List Nat}
    (hRising : places.Pairwise (· < ·)) (hSize : ∀ n ∈ places, n < t.size) :
    ∃ found : List Nat, evalSteps nav [.mk axis test []] (places.map f) = .ok (found.map f) ∧
      found.Pairwise (· < ·) ∧ (∀ m ∈ found, m < t.size) ∧
      ∀ m, m ∈ found ↔ ∃ n ∈ places, m ∈ t.matchingPlaces nav f n axis test := by
  have hStart : InOrder t f (places.map f) := ⟨places, rfl, hRising, hSize⟩
  have hUnion := h.isUnion_step hPlaces hStart (.mk axis test [])
  have hEach := fun n hMem => h.select_eq_matchingPlaces hPlaces (hSize n hMem) axis test
  have hPlace : ∀ (others : List Nat) m, f m ∈ others.map f ↔ m ∈ others := fun others m =>
    List.mem_map_of_injective fun _ _ => hPlaces.position_injective
  obtain ⟨nodes, hNodes⟩ := hUnion.exists_iff.2 fun p hMem => by
    obtain ⟨n, hPlace, rfl⟩ := List.mem_map.1 hMem
    exact ⟨_, hEach n hPlace⟩
  obtain ⟨found, rfl, hFound, hFoundSize⟩ := h.inOrder_evalSteps hPlaces hStart _ nodes hNodes
  refine ⟨found, hNodes, hFound, hFoundSize, fun m => ?_⟩
  rw [← hPlace, hUnion.mem_iff _ hNodes]
  constructor
  · rintro ⟨_, hMem, own, hOwn, hIn⟩
    obtain ⟨n, hN, rfl⟩ := List.mem_map.1 hMem
    rw [hEach n hN] at hOwn
    cases hOwn
    rw [hPlace, axis.mem_inDocumentOrder_iff] at hIn
    exact ⟨n, hN, hIn⟩
  · rintro ⟨n, hN, hIn⟩
    refine ⟨f n, List.mem_map_of_mem hN, _, hEach n hN, ?_⟩
    rwa [hPlace, axis.mem_inDocumentOrder_iff]

/-- The children of the nodes at and below those of a node-set are the nodes below them. -/
theorem Depicts.evalSteps_children_eq (test : NodeTest) {start : List P}
    (hStart : InOrder t f start) :
    evalSteps nav [.descendantOrSelf, .mk .child test []] start =
      evalSteps nav [.mk .descendant test []] start := by
  obtain ⟨places, rfl, hRising, hSize⟩ := hStart
  obtain ⟨between, hBetween, hOrder, hBetweenSize, hMem⟩ :=
    h.exists_evalSteps_eq_ok hPlaces .descendantOrSelf .anyNode hRising hSize
  obtain ⟨children, hChildren, hChildrenOrder, -, hChildrenMem⟩ :=
    h.exists_evalSteps_eq_ok hPlaces .child test hOrder hBetweenSize
  obtain ⟨below, hBelow, hBelowOrder, -, hBelowMem⟩ :=
    h.exists_evalSteps_eq_ok hPlaces .descendant test hRising hSize
  have hSame : children = below := by
    refine hChildrenOrder.eq_of_mem_iff hBelowOrder fun m => ?_
    simp only [hChildrenMem, hBelowMem, hMem, matchingPlaces, List.mem_filter, Navigator.passes,
      and_true]
    constructor
    · rintro ⟨p, ⟨n, hN, hAbove⟩, hChild, hTest⟩
      exact ⟨n, hN, (h.mem_descendant_iff (hSize n hN) m).2 ⟨p, hAbove, hChild⟩, hTest⟩
    · rintro ⟨n, hN, hIn, hTest⟩
      obtain ⟨p, hAbove, hChild⟩ := (h.mem_descendant_iff (hSize n hN) m).1 hIn
      exact ⟨p, ⟨n, hN, hAbove⟩, hChild, hTest⟩
  rw [← List.singleton_append, evalSteps_append, Step.descendantOrSelf, hBetween, hBelow, ← hSame]
  exact hChildren

/-- Position-free predicates may follow either. -/
theorem Depicts.sameResult_descendants (test : NodeTest) {start : List P}
    (hStart : InOrder t f start) {predicates : List Expr}
    (hFree : ∀ predicate ∈ predicates, predicate.isPositionFree = true) :
    SameResult (evalSteps nav [.descendantOrSelf, .mk .child test predicates] start)
      (evalSteps nav [.mk .descendant test predicates] start) := by
  have hChildren := h.evalSteps_children_eq hPlaces test hStart
  have hFirst := h.inOrder_evalSteps hPlaces hStart [.descendantOrSelf]
  have hTwo : ∀ own, evalSteps nav [.descendantOrSelf, .mk .child test own] start =
      evalSteps nav [.descendantOrSelf] start >>= evalSteps nav [.mk .child test own] :=
    fun own => evalSteps_append nav [.descendantOrSelf] [.mk .child test own] start
  intro nodes
  rw [h.sameResult_predicates hPlaces .descendant test hStart hFree nodes, ← hChildren, hTwo, hTwo,
    bind_assoc, bind_eq_ok_iff, bind_eq_ok_iff]
  refine exists_congr fun between => and_congr_right fun hBetween => ?_
  exact h.sameResult_predicates hPlaces .child test (hFirst between hBetween) hFree nodes

/-- From the root, two slashes lead to all nodes but the root that match. -/
theorem Depicts.eval_descendants {context : Context P} {n : Nat} (hContext : context.node = f n)
    (test : NodeTest) :
    (Expr.path true [.descendantOrSelf, .mk .child test []]).eval nav context =
      .ok (.nodes
        (((List.range t.size).filter fun m => m ≠ 0 && nav.passes (f m) test).map f)) := by
  have hRoot : (if true = true then nav.root context.node else context.node) = f 0 := by
    rw [if_pos rfl, hContext, hPlaces.root_eq]
    rfl
  have hAll : t.matchingPlaces nav f 0 .descendant test =
      (List.range t.size).filter fun m => m ≠ 0 && nav.passes (f m) test := by
    refine eq_filter_range (pairwise_matchingPlaces t nav f 0 .descendant test) fun m => ?_
    have hSize := h.lt_size
    simp only [matchingPlaces, axisPlaces, h.stop_root, List.mem_filter, List.mem_range'_1,
      Bool.and_eq_true, decide_eq_true_eq]
    have hBounds : 0 + 1 ≤ m ∧ m < 0 + 1 + (t.size - (0 + 1)) ↔ m < t.size ∧ m ≠ 0 := by omega
    rw [hBounds, and_assoc]
  rw [Expr.eval_eq_nodesAt nav context rfl, Expr.nodesAt_path, hRoot,
    h.evalSteps_children_eq hPlaces test (inOrder_singleton h.lt_size), evalSteps_singleton,
    h.select_eq_matchingPlaces hPlaces h.lt_size, hAll]
  rfl

end Evaluation

/-- Two slashes in a tree that has been built.  From any node-set, the two steps that they stand for
have a result if the step along the descendant axis has one, and the same one, whatever position-free
predicates they end with.  The query of two slashes and a node test finds every node but the root that
passes the test, in document order.  This holds for every navigator that stands on the places of the
tree, as the tree's own and cursors do. -/
theorem eval_descendants_of_build {value : Value} {t : Tree} (hBuild : build value = .ok t)
    {P : Type} {nav : Navigator P} {f : Nat → P} (hPlaces : t.navigator.Places nav f)
    (test : NodeTest) :
    (∀ (start : List P) (predicates : List Expr), InOrder t f start →
      (∀ predicate ∈ predicates, predicate.isPositionFree = true) →
      SameResult (evalSteps nav [.descendantOrSelf, .mk .child test predicates] start)
        (evalSteps nav [.mk .descendant test predicates] start)) ∧
    (test.isWritable = true → ∃ expr, parse (String.ofList ('/' :: '/' :: test.written)) = .ok expr ∧
      expr = .path true [.descendantOrSelf, .mk .child test []] ∧
      ∀ (context : Context P) (n : Nat), context.node = f n → ∃ found : List Nat,
        expr.eval nav context = .ok (.nodes (found.map f)) ∧ found.Pairwise (· < ·) ∧
          ∀ m, m ∈ found ↔ m < t.size ∧ m ≠ 0 ∧ nav.passes (f m) test = true) := by
  obtain ⟨all, -, h⟩ := exists_depicts_of_build_eq_ok hBuild
  refine ⟨fun start predicates hStart hFree => h.sameResult_descendants hPlaces test hStart hFree,
    fun hTest => ⟨_, Parse.parse_eq_ok_of_reads_pathExpr fun nested => Parse.reads_descendants hTest,
      rfl, fun context n hContext => ⟨_, h.eval_descendants hPlaces hContext test, ?_, fun m => ?_⟩⟩⟩
  · exact List.pairwise_lt_range.filter _
  · simp only [List.mem_filter, List.mem_range, Bool.and_eq_true, decide_eq_true_eq]

theorem eval_descendants_of_build_pair :
    build (.sequence [.scalar .null, .scalar (.boolean true)]) = .ok pair ∧
      pair.navigator.Places pair.navigator id ∧ InOrder pair id [0, 3] ∧
      (Expr.path false [.mk .following .anyNode []]).isPositionFree = true ∧
      SameResult
        (evalSteps pair.navigator [.descendantOrSelf,
          .mk .child .anyText [.path false [.mk .following .anyNode []]]] [0, 3])
        (evalSteps pair.navigator
          [.mk .descendant .anyText [.path false [.mk .following .anyNode []]]] [0, 3]) ∧
      ∃ expr, parse "//text()" = .ok expr ∧ ∃ found : List Nat,
        expr.eval pair.navigator ⟨4, 1, 1⟩ = .ok (.nodes (found.map id)) ∧
          found.Pairwise (· < ·) ∧ 2 ∈ found ∧ 3 ∉ found := by
  have hOrder : InOrder pair id [0, 3] := ⟨[0, 3], rfl, by decide, by decide⟩
  obtain ⟨hSame, hQuery⟩ :=
    eval_descendants_of_build build_pair pair.navigator.places_self .anyText
  obtain ⟨expr, hParse, -, hEval⟩ := hQuery rfl
  obtain ⟨found, hFound, hRising, hMem⟩ := hEval ⟨4, 1, 1⟩ 4 rfl
  refine ⟨build_pair, pair.navigator.places_self, hOrder, by decide,
    hSame [0, 3] _ hOrder (by decide), expr, hParse, found, hFound, hRising, (hMem 2).2 (by decide),
    fun hIn => absurd ((hMem 3).1 hIn) (by decide)⟩

end Tree

end CborPath
