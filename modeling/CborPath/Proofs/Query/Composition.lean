import CborPath.Proofs.Query.NodeSets

/-!
# Composition of steps

Context nodes do not influence each other.  Steps from a node-set fail if they fail from one of its
nodes, and otherwise lead to what they lead to from each of its nodes alone, put together.  So
going on from each node that a path finds finds together what the joined path finds.
-/

namespace CborPath

/-- Whether an outcome is what the outcomes for some elements give together: it is a failure if one of
them is, and otherwise has the elements that they have. -/
structure IsUnion {ε α β : Type} (outcome : Except ε (List β)) (f : α → Except ε (List β))
    (xs : List α) : Prop where
  exists_iff : (∃ ys, outcome = .ok ys) ↔ ∀ x ∈ xs, ∃ own, f x = .ok own
  mem_iff : ∀ ys, outcome = .ok ys → ∀ y, y ∈ ys ↔ ∃ x ∈ xs, ∃ own, f x = .ok own ∧ y ∈ own

section IsUnion

variable {ε α β γ : Type} {outcome : Except ε (List β)} {f : α → Except ε (List β)} {xs : List α}

theorem isUnion_joinMap (f : α → Except ε (List β)) (xs : List α) :
    IsUnion (joinMap f xs) f xs := by
  induction xs with
  | nil =>
      refine ⟨⟨fun _ y hMem => absurd hMem List.not_mem_nil, fun _ => ⟨[], rfl⟩⟩, ?_⟩
      rintro _ ⟨⟩ y
      simp
  | cons x xs ih =>
      rw [joinMap]
      cases hFirst : f x with
      | error e =>
          constructor
          · constructor
            · rintro ⟨_, ⟨⟩⟩
            · intro h
              obtain ⟨own, hOwn⟩ := h x List.mem_cons_self
              rw [hFirst] at hOwn
              cases hOwn
          · rintro _ ⟨⟩
      | ok first =>
          cases hRest : joinMap f xs with
          | error e =>
              rw [hRest] at ih
              constructor
              · constructor
                · rintro ⟨_, ⟨⟩⟩
                · intro h
                  have hAll := ih.exists_iff.2 fun y hMem => h y (List.mem_cons_of_mem x hMem)
                  obtain ⟨_, ⟨⟩⟩ := hAll
              · rintro _ ⟨⟩
          | ok rest =>
              rw [hRest] at ih
              refine ⟨⟨fun _ => ?_, fun _ => ⟨first ++ rest, rfl⟩⟩, ?_⟩
              · intro y hMem
                rcases List.mem_cons.1 hMem with rfl | hLater
                · exact ⟨first, hFirst⟩
                · exact ih.exists_iff.1 ⟨rest, rfl⟩ y hLater
              · rintro _ ⟨⟩ y
                rw [List.mem_append, ih.mem_iff rest rfl, List.exists_mem_cons_iff, hFirst]
                simp

/-- A function of the result that keeps its elements keeps it a union. -/
theorem IsUnion.map {g : List β → List β} (h : IsUnion outcome f xs)
    (hMem : ∀ ys, outcome = .ok ys → ∀ y, y ∈ g ys ↔ y ∈ ys) :
    IsUnion (outcome >>= fun ys => .ok (g ys)) f xs := by
  cases outcome with
  | error e => exact h
  | ok ys =>
      refine ⟨⟨fun _ => h.exists_iff.1 ⟨ys, rfl⟩, fun _ => ⟨g ys, rfl⟩⟩, ?_⟩
      rintro _ ⟨⟩ y
      rw [hMem ys rfl, h.mem_iff ys rfl]

section Next

variable {next : List β → Except ε (List γ)} {g : β → Except ε (List γ)}

/-- What goes on from each element of a first outcome has a result if the first outcome has one and
each of its elements leads on. -/
theorem exists_bind_eq_ok_iff (hNext : ∀ ys, outcome = .ok ys → IsUnion (next ys) g ys) :
    (∃ zs, outcome >>= next = .ok zs) ↔
      ∃ ys, outcome = .ok ys ∧ ∀ y ∈ ys, ∃ own, g y = .ok own := by
  constructor
  · rintro ⟨zs, hEq⟩
    obtain ⟨ys, hYs, hZs⟩ := bind_eq_ok_iff.1 hEq
    exact ⟨ys, hYs, (hNext ys hYs).exists_iff.1 ⟨zs, hZs⟩⟩
  · rintro ⟨ys, hYs, hAll⟩
    obtain ⟨zs, hZs⟩ := (hNext ys hYs).exists_iff.2 hAll
    exact ⟨zs, bind_eq_ok_iff.2 ⟨ys, hYs, hZs⟩⟩

/-- Unions of unions: what goes on from a union goes on from each of its parts. -/
theorem IsUnion.bind (h : IsUnion outcome f xs)
    (hNext : ∀ ys, outcome = .ok ys → IsUnion (next ys) g ys)
    (hOwn : ∀ x ∈ xs, ∀ own, f x = .ok own → IsUnion (next own) g own) :
    IsUnion (outcome >>= next) (fun x => f x >>= next) xs := by
  constructor
  · rw [exists_bind_eq_ok_iff hNext]
    constructor
    · rintro ⟨ys, hYs, hAll⟩ x hX
      obtain ⟨own, hFound⟩ := h.exists_iff.1 ⟨ys, hYs⟩ x hX
      refine (exists_bind_eq_ok_iff (hOwn x hX)).2 ⟨own, hFound, fun y hY => ?_⟩
      exact hAll y ((h.mem_iff ys hYs y).2 ⟨x, hX, own, hFound, hY⟩)
    · intro hAll
      have hParts := fun x hX => (exists_bind_eq_ok_iff (hOwn x hX)).1 (hAll x hX)
      obtain ⟨ys, hYs⟩ := h.exists_iff.2 fun x hX =>
        let ⟨own, hFound, _⟩ := hParts x hX
        ⟨own, hFound⟩
      refine ⟨ys, hYs, fun y hY => ?_⟩
      obtain ⟨x, hX, own, hFound, hY⟩ := (h.mem_iff ys hYs y).1 hY
      obtain ⟨own', hFound', hOwn'⟩ := hParts x hX
      cases hFound.symm.trans hFound'
      exact hOwn' y hY
  · intro zs hEq z
    obtain ⟨ys, hYs, hZs⟩ := bind_eq_ok_iff.1 hEq
    rw [(hNext ys hYs).mem_iff zs hZs]
    constructor
    · rintro ⟨y, hY, own', hLead, hZ⟩
      obtain ⟨x, hX, own, hFound, hY⟩ := (h.mem_iff ys hYs y).1 hY
      have hAll := (hNext ys hYs).exists_iff.1 ⟨zs, hZs⟩
      obtain ⟨zs', hZs'⟩ := (hOwn x hX own hFound).exists_iff.2 fun y' hY' =>
        hAll y' ((h.mem_iff ys hYs y').2 ⟨x, hX, own, hFound, hY'⟩)
      refine ⟨x, hX, zs', bind_eq_ok_iff.2 ⟨own, hFound, hZs'⟩, ?_⟩
      exact ((hOwn x hX own hFound).mem_iff zs' hZs' z).2 ⟨y, hY, own', hLead, hZ⟩
    · rintro ⟨x, hX, zs', hEq', hZ⟩
      obtain ⟨own, hFound, hZs'⟩ := bind_eq_ok_iff.1 hEq'
      obtain ⟨y, hY, hLead⟩ := ((hOwn x hX own hFound).mem_iff zs' hZs' z).1 hZ
      exact ⟨y, (h.mem_iff ys hYs y).2 ⟨x, hX, own, hFound, hY⟩, hLead⟩

end Next

end IsUnion

section Steps

variable {P : Type} (nav : Navigator P)

/-- Steps one after the other. -/
theorem evalSteps_append (p q : List Step) (nodes : List P) :
    evalSteps nav (p ++ q) nodes = evalSteps nav p nodes >>= evalSteps nav q := by
  induction p generalizing nodes with
  | nil =>
      rw [evalSteps]
      rfl
  | cons step rest ih =>
      rw [List.cons_append, evalSteps, evalSteps]
      cases joinMap (step.select nav) nodes with
      | error e => rfl
      | ok found => exact ih _

/-- What a step finds from one node is what it selects from it. -/
theorem evalSteps_singleton (step : Step) (node : P) :
    evalSteps nav [step] [node] = step.select nav node := by
  simp only [evalSteps, joinMap_singleton, List.length_singleton, if_true]
  cases step.select nav node <;> rfl

/-- A path selects what its steps lead to. -/
theorem select_path (absolute : Bool) (steps : List Step) (node : P) :
    (Expr.path absolute steps).select nav node =
      evalSteps nav steps [if absolute then nav.root node else node] := by
  rw [Expr.select, Expr.evaluate, Expr.eval]
  cases evalSteps nav steps [if absolute then nav.root node else node] with
  | error e => rfl
  | ok nodes => rfl

end Steps

section InOrder

variable {P : Type} {t : Tree} {f : Nat → P} {nav : Navigator P} {nodes : List P}
  (hPlaces : t.navigator.Places nav f)
include hPlaces

/-- Sorting nodes of a tree loses none of them. -/
theorem Standing.mem_documentOrder_iff (h : Standing t f nodes) (p : P) :
    p ∈ nav.documentOrder nodes ↔ p ∈ nodes := by
  obtain ⟨places, rfl, -⟩ := h
  rw [hPlaces.documentOrder_eq, List.mem_map, List.mem_map]
  simp only [t.mem_documentOrder_iff]

end InOrder

namespace Tree

section Evaluation

variable {P : Type} {t : Tree} {all : List Outline} {f : Nat → P} {nav : Navigator P}
  (h : t.Depicts all) (hPlaces : t.navigator.Places nav f)
include h hPlaces

/-- What a step finds from a node-set is what it selects from each of its nodes. -/
theorem Depicts.isUnion_step {nodes : List P} (hNodes : InOrder t f nodes) (step : Step) :
    IsUnion (evalSteps nav [step] nodes) (step.select nav) nodes := by
  have hStanding := h.standing_joinMap_select hPlaces hNodes step
  have hSingle : evalSteps nav [step] nodes = joinMap (step.select nav) nodes >>= fun found =>
      .ok (if nodes.length = 1 then found else nav.documentOrder found) := by
    simp only [evalSteps]
  rw [hSingle]
  refine (isUnion_joinMap (step.select nav) nodes).map fun found hFound p => ?_
  split
  · rfl
  · exact (hStanding found hFound).mem_documentOrder_iff hPlaces p

/-- What steps find from a node-set is what they find from each of its nodes alone. -/
theorem Depicts.isUnion_evalSteps {nodes : List P} (hNodes : InOrder t f nodes)
    (steps : List Step) :
    IsUnion (evalSteps nav steps nodes) (fun n => evalSteps nav steps [n]) nodes := by
  induction steps generalizing nodes with
  | nil =>
      simp only [evalSteps]
      refine ⟨⟨fun _ n _ => ⟨[n], rfl⟩, fun _ => ⟨nodes, rfl⟩⟩, ?_⟩
      rintro _ ⟨⟩ p
      simp
  | cons step rest ih =>
      have hEach : (fun n => evalSteps nav (step :: rest) [n]) =
          fun n => step.select nav n >>= evalSteps nav rest := by
        funext n
        rw [← List.singleton_append, evalSteps_append, evalSteps_singleton]
      have hStep := h.inOrder_evalSteps hPlaces hNodes [step]
      rw [hEach, ← List.singleton_append, evalSteps_append]
      refine (h.isUnion_step hPlaces hNodes step).bind (fun found hFound => ih (hStep found hFound))
        fun n hMem own hOwn => ?_
      obtain ⟨places, rfl, -, hSize⟩ := hNodes
      obtain ⟨m, hPlace, rfl⟩ := List.mem_map.1 hMem
      exact ih (h.inOrder_select hPlaces (hSize m hPlace) step own hOwn)

/-- Joined steps lead to what the second lead to from each node that the first lead to. -/
theorem Depicts.isUnion_evalSteps_append {nodes between : List P} (hNodes : InOrder t f nodes)
    {p q : List Step} (hBetween : evalSteps nav p nodes = .ok between) :
    IsUnion (evalSteps nav (p ++ q) nodes) (fun m => evalSteps nav q [m]) between := by
  rw [evalSteps_append, hBetween]
  exact h.isUnion_evalSteps hPlaces (h.inOrder_evalSteps hPlaces hNodes p between hBetween) q

theorem Depicts.exists_evalSteps_append_iff {nodes : List P} (hNodes : InOrder t f nodes)
    (p q : List Step) :
    (∃ found, evalSteps nav (p ++ q) nodes = .ok found) ↔
      ∃ between, evalSteps nav p nodes = .ok between ∧
        ∀ m ∈ between, ∃ own, evalSteps nav q [m] = .ok own := by
  rw [evalSteps_append]
  exact exists_bind_eq_ok_iff fun between hBetween =>
    h.isUnion_evalSteps hPlaces (h.inOrder_evalSteps hPlaces hNodes p between hBetween) q

/-- The same for queries: a relative path from each match of a first path finds what the joined path
finds. -/
theorem Depicts.isUnion_select_append {n : Nat} (hId : n < t.size) {absolute : Bool}
    {p q : List Step} {between : List P}
    (hBetween : (Expr.path absolute p).select nav (f n) = .ok between) :
    IsUnion ((Expr.path absolute (p ++ q)).select nav (f n))
      (fun m => (Expr.path false q).select nav m) between := by
  have hStart : InOrder t f [if absolute then nav.root (f n) else f n] := by
    cases absolute with
    | true =>
        rw [if_pos rfl, hPlaces.root_eq]
        exact inOrder_singleton h.lt_size
    | false => exact inOrder_singleton hId
  simp only [select_path] at hBetween ⊢
  exact h.isUnion_evalSteps_append hPlaces hStart hBetween

end Evaluation

/-- In a tree that has been built, steps from nodes in rising order fail if they fail from one of the
nodes, and otherwise lead to the nodes that they lead to from each of them, in rising order.  Joined
steps have a result if the first have one and the second have one from each node in it, and they lead
to what the second lead to from each of those.  This holds for the tree's own navigator and for
cursors, and so for the paths that queries select by. -/
theorem evalSteps_union_of_build {value : Value} {t : Tree} (hBuild : build value = .ok t) :
    (∀ (p q : List Step) (start : List Nat), (∀ m ∈ start, m < t.size) → start.Pairwise (· < ·) →
      IsUnion (evalSteps t.navigator p start) (fun n => evalSteps t.navigator p [n]) start ∧
      (∀ found, evalSteps t.navigator p start = .ok found → found.Pairwise (· < ·)) ∧
      ((∃ found, evalSteps t.navigator (p ++ q) start = .ok found) ↔
        ∃ between, evalSteps t.navigator p start = .ok between ∧
          ∀ m ∈ between, ∃ own, evalSteps t.navigator q [m] = .ok own) ∧
      ∀ between, evalSteps t.navigator p start = .ok between →
        IsUnion (evalSteps t.navigator (p ++ q) start) (fun m => evalSteps t.navigator q [m])
          between) ∧
    (∀ (p q : List Step) (document origin : Nat) (places : List Nat) (start : List Cursor),
      start = places.map (fun m => ⟨document, t, m, origin⟩) → (∀ m ∈ places, m < t.size) →
      places.Pairwise (· < ·) →
      IsUnion (evalSteps Cursor.navigator p start) (fun c => evalSteps Cursor.navigator p [c])
        start ∧
      (∀ found, evalSteps Cursor.navigator p start = .ok found →
        (found.map Cursor.current).Pairwise (· < ·)) ∧
      ((∃ found, evalSteps Cursor.navigator (p ++ q) start = .ok found) ↔
        ∃ between, evalSteps Cursor.navigator p start = .ok between ∧
          ∀ c ∈ between, ∃ own, evalSteps Cursor.navigator q [c] = .ok own) ∧
      ∀ between, evalSteps Cursor.navigator p start = .ok between →
        IsUnion (evalSteps Cursor.navigator (p ++ q) start)
          (fun c => evalSteps Cursor.navigator q [c]) between) ∧
    ∀ (absolute : Bool) (p q : List Step) (n : Nat) (between : List Nat), n < t.size →
      (Expr.path absolute p).select t.navigator n = .ok between →
      IsUnion ((Expr.path absolute (p ++ q)).select t.navigator n)
        (fun m => (Expr.path false q).select t.navigator m) between := by
  obtain ⟨all, -, h⟩ := exists_depicts_of_build_eq_ok hBuild
  have hOwn : t.navigator.Places t.navigator id := t.navigator.places_self
  refine ⟨fun p q start hSize hRising => ?_, ?_, fun absolute p q n between hId => ?_⟩
  · have hStart : InOrder t id start := ⟨start, (List.map_id start).symm, hRising, hSize⟩
    refine ⟨h.isUnion_evalSteps hOwn hStart p, fun found hFound => ?_,
      h.exists_evalSteps_append_iff hOwn hStart p q,
      fun between => h.isUnion_evalSteps_append hOwn hStart⟩
    obtain ⟨places, rfl, hFoundRising, -⟩ := h.inOrder_evalSteps hOwn hStart p found hFound
    rwa [List.map_id]
  · rintro p q document origin places _ rfl hSize hRising
    have hCursors := Cursor.places_navigator document t origin
    have hStart : InOrder t (fun m => (⟨document, t, m, origin⟩ : Cursor)) _ :=
      ⟨places, rfl, hRising, hSize⟩
    refine ⟨h.isUnion_evalSteps hCursors hStart p, fun found hFound => ?_,
      h.exists_evalSteps_append_iff hCursors hStart p q,
      fun between => h.isUnion_evalSteps_append hCursors hStart⟩
    obtain ⟨found, rfl, hFoundRising, -⟩ := h.inOrder_evalSteps hCursors hStart p _ hFound
    rw [List.map_map]
    exact (List.map_id found).symm ▸ hFoundRising
  · exact h.isUnion_select_append hOwn hId

theorem evalSteps_union_of_build_pair :
    build (.sequence [.scalar .null, .scalar (.boolean true)]) = .ok pair ∧
    evalSteps pair.navigator [.mk .child .anyElement []] [0] = .ok [1, 3] ∧
    IsUnion (evalSteps pair.navigator
        ([.mk .child .anyElement []] ++ [.mk .ancestorOrSelf .anyNode []]) [0])
      (fun m => evalSteps pair.navigator [.mk .ancestorOrSelf .anyNode []] [m]) [1, 3] ∧
    IsUnion (evalSteps pair.navigator [.mk .ancestorOrSelf .anyNode []] [1, 3])
      (fun m => evalSteps pair.navigator [.mk .ancestorOrSelf .anyNode []] [m]) [1, 3] ∧
    evalSteps pair.navigator [.mk .ancestorOrSelf .anyNode []] [1] = .ok [0, 1] ∧
    evalSteps pair.navigator [.mk .ancestorOrSelf .anyNode []] [3] = .ok [0, 3] := by
  have hBetween : evalSteps pair.navigator [.mk .child .anyElement []] [0] = .ok [1, 3] := by
    rfl
  have hAll := (evalSteps_union_of_build build_pair).1
  have hJoined := hAll [.mk .child .anyElement []] [.mk .ancestorOrSelf .anyNode []] [0]
    (by decide) (by decide)
  have hSeveral := hAll [.mk .ancestorOrSelf .anyNode []] [] [1, 3] (by decide) (by decide)
  exact ⟨build_pair, hBetween, hJoined.2.2.2 [1, 3] hBetween, hSeveral.1, rfl, rfl⟩

end Tree

end CborPath
