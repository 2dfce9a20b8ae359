import CborPath.Proofs.Engine.Session
import CborPath.Proofs.Tree.Construction

/-!
# Replies with and without a cache

A cache changes nothing of what a session replies, but which objects its compilations share: whatever
has been asked, compiled and forgotten before, every request is answered as by an engine that does not
cache.  A request that fails leaves the cache as the compilation of its text does.
-/

namespace CborPath

/-- A reply regardless of which object holds a compilation. -/
def Reply.content : Reply → Reply
  | compiled shared => compiled { shared with serial := 0 }
  | reply => reply

namespace Engine

/-- The replies to the requests of a session, or why they fail. -/
def replies (engine : Engine) (steps : List (Tree × Request)) : List (Except Error Reply) :=
  (engine.serveAll steps).map fun outcome => outcome.result.map Reply.content

/-- Whether the cache of an engine, if it is used, holds nothing but compilations of its texts. -/
def Sound (engine : Engine) : Prop :=
  engine.configuration.cacheExpressions = true → engine.cache.Sound

theorem sound_fresh (caching : Bool) :
    (fresh caching).Sound :=
  fun _ => Cache.sound_empty

section Results

variable (engine : Engine)

theorem result_run {α : Type} (text : String) (use : Query → Except EvalError α) :
    (engine.run text use).result =
      (engine.compile text).result.map Shared.query >>= fun query =>
        (use query).mapError (Error.evaluation text) := by
  unfold run
  dsimp only
  cases (engine.compile text).result <;> rfl

theorem result_queryAll (tree : Tree) (node : NodeId) (text : String) :
    (engine.queryAll tree node text).result =
      (engine.run text fun query => query.expr.select tree.navigator node).result := by
  unfold queryAll
  dsimp only
  split <;> rfl

end Results

section Sound

variable {engine other : Engine} (h : engine.Sound)
include h

theorem Sound.serve (tree : Tree) (request : Request) :
    (engine.serve tree request).engine.Sound := by
  intro hCaching
  rw [engine.configuration_serve] at hCaching
  rw [cache_serve hCaching]
  exact (h hCaching).afterRequest request.text?

theorem Sound.after (steps : List (Tree × Request)) :
    (engine.after steps).Sound := by
  induction steps generalizing engine with
  | nil => exact h
  | cons step steps ih => exact ih (h.serve step.1 step.2)

/-- Every text is compiled to what it compiles to without a cache. -/
theorem Sound.query_compile (text : String) :
    (engine.compile text).result.map Shared.query =
      (Query.compile text).mapError (Error.invalidExpression text) := by
  cases hCaching : engine.configuration.cacheExpressions with
  | true =>
      rw [compile_of_caching hCaching, ← (h hCaching).compile_eq]
      cases (engine.cache.getOrCompile text).1 <;> rfl
  | false =>
      rw [compile_of_not_caching hCaching]
      obtain ⟨e, hCompile, hFresh⟩ | ⟨query, hCompile, hFresh⟩ :=
        engine.cache.compileFresh_cases text <;> rw [hFresh, hCompile] <;> rfl

variable (hOther : other.Sound)
include hOther

theorem Sound.result_run_eq {α : Type} (text : String) (use : Query → Except EvalError α) :
    (engine.run text use).result = (other.run text use).result := by
  rw [engine.result_run, other.result_run, h.query_compile, hOther.query_compile]

/-- A request is answered alike by all engines. -/
theorem Sound.content_serve_eq (tree : Tree) (request : Request) :
    (engine.serve tree request).result.map Reply.content =
      (other.serve tree request).result.map Reply.content := by
  cases request with
  | compile text =>
      have hContent : ∀ e : Engine, (e.serve tree (.compile text)).result.map Reply.content =
          ((e.compile text).result.map Shared.query).map fun query => .compiled ⟨0, query⟩ := by
        intro e
        rw [Engine.serve, Outcome.map]
        cases (e.compile text).result <;> rfl
      rw [hContent, hContent, h.query_compile, hOther.query_compile]
  | queryAll node text =>
      rw [Engine.serve, Engine.serve, Outcome.map, Outcome.map, engine.result_queryAll,
        other.result_queryAll, h.result_run_eq hOther]
  | queryFirst node text =>
      rw [Engine.serve, Engine.serve, Outcome.map, Outcome.map, queryFirst, queryFirst,
        h.result_run_eq hOther]
  | evaluate node text =>
      rw [Engine.serve, Engine.serve, Outcome.map, Outcome.map, evaluate, evaluate,
        h.result_run_eq hOther]
  | clear => rfl

theorem Sound.replies_eq (steps : List (Tree × Request)) :
    engine.replies steps = other.replies steps := by
  induction steps generalizing engine other with
  | nil => rfl
  | cons step steps ih =>
      obtain ⟨tree, request⟩ := step
      rw [replies, replies, serveAll, serveAll, List.map_cons, List.map_cons,
        h.content_serve_eq hOther]
      exact congrArg _ (ih (h.serve tree request) (hOther.serve tree request))

end Sound

/-- What does not compile leaves the engine as it is. -/
theorem engine_compile_of_error (engine : Engine) {text : String} {e : ParseError}
    (h : parse text = .error e) :
    (engine.compile text).engine = engine := by
  have hCompile : ∀ query, Query.compile text ≠ .ok query := by
    intro query hQuery
    rw [(Query.compile_eq_ok_iff.1 hQuery).2] at h
    cases h
  cases hCaching : engine.configuration.cacheExpressions with
  | true =>
      rw [compile_of_caching hCaching]
      obtain ⟨shared, -, hGet⟩ | ⟨e, -, -, hGet⟩ | ⟨query, -, hQuery, -⟩ :=
        engine.cache.getOrCompile_cases text
      · rw [hGet]
      · rw [hGet]
      · exact absurd hQuery (hCompile query)
  | false =>
      rw [compile_of_not_caching hCaching]
      obtain ⟨e, -, hFresh⟩ | ⟨query, hQuery, -⟩ := engine.cache.compileFresh_cases text
      · rw [hFresh]
      · exact absurd hQuery (hCompile query)

/-- A session with a cache replies to every request as a session without one, and as any engine that
does not cache.  A request that fails leaves the engine as the compilation of its text does, which
changes nothing if the text does not compile; and it changes no later reply. -/
theorem replies_fresh_eq :
    (∀ steps, (fresh true).replies steps = (fresh false).replies steps) ∧
    (∀ (steps : List (Tree × Request)) (tree : Tree) (request : Request) (other : Engine),
      other.configuration.cacheExpressions = false →
      (((fresh true).after steps).serve tree request).result.map Reply.content =
        (other.serve tree request).result.map Reply.content) ∧
    ∀ (steps : List (Tree × Request)) (tree : Tree) (request : Request) (e : Error),
      (((fresh true).after steps).serve tree request).result = .error e →
      (∃ text, request.text? = some text ∧
        (((fresh true).after steps).serve tree request).engine =
          (((fresh true).after steps).compile text).engine ∧
        ((∃ cause, parse text = .error cause) →
          (((fresh true).after steps).serve tree request).engine = (fresh true).after steps)) ∧
      ∀ later, (((fresh true).after steps).serve tree request).engine.replies later =
        ((fresh true).after steps).replies later := by
  have hSound : ∀ steps, ((fresh true).after steps).Sound := (sound_fresh true).after
  refine ⟨fun steps => (sound_fresh true).replies_eq (sound_fresh false) steps,
    fun steps tree request other hOther => ?_, fun steps tree request e hResult => ⟨?_, ?_⟩⟩
  · have hOtherSound : other.Sound := by
      intro hCaching
      rw [hOther] at hCaching
      cases hCaching
    exact (hSound steps).content_serve_eq hOtherSound tree request
  · cases hText : request.text? with
    | none =>
        rw [Request.text?_eq_none_iff.1 hText] at hResult
        cases hResult
    | some text =>
        refine ⟨text, rfl, engine_serve _ hText tree, ?_⟩
        rintro ⟨cause, hParse⟩
        rw [engine_serve _ hText, engine_compile_of_error _ hParse]
  · exact ((hSound steps).serve tree request).replies_eq (hSound steps)

/-- A text that compiles is cached, although the request for its nodes fails. -/
theorem size_cache_serve_number :
    Tree.build (.sequence [.scalar .null, .scalar (.boolean true)]) = .ok Tree.pair ∧
      ((fresh true).serve Tree.pair (.queryAll 0 "1")).result =
        .error (.evaluation "1" ⟨.number⟩) ∧
      (fresh true).cache.size = 0 ∧
      ((fresh true).serve Tree.pair (.queryAll 0 "1")).engine.cache.size = 1 :=
  ⟨Tree.build_pair, rfl, rfl, rfl⟩

theorem replies_fresh_eq_root :
    (fresh true).replies [(default, .queryAll 0 "1"), (default, .compile "/"),
        (default, .evaluate 0 "/")] =
      (fresh false).replies [(default, .queryAll 0 "1"), (default, .compile "/"),
        (default, .evaluate 0 "/")] ∧
    (((fresh true).after [(default, .compile "/")]).serve default (.queryFirst 0 "1")).result =
      .error (.evaluation "1" ⟨.number⟩) ∧
    (((fresh true).after [(default, .compile "/")]).serve default
        (.queryFirst 0 "1")).engine.replies [(default, .compile "/")] =
      ((fresh true).after [(default, .compile "/")]).replies [(default, .compile "/")] ∧
    (((fresh true).after [(default, .compile "/")]).serve default (.compile "/")).result.map
        Reply.content =
      ((fresh false).serve default (.compile "/")).result.map Reply.content := by
  have hFails : (((fresh true).after [(default, .compile "/")]).serve default
      (.queryFirst 0 "1")).result = .error (.evaluation "1" ⟨.number⟩) := rfl
  exact ⟨replies_fresh_eq.1 _, hFails, (replies_fresh_eq.2.2 _ _ _ _ hFails).2 _,
    replies_fresh_eq.2.1 _ _ _ _ rfl⟩

end Engine

end CborPath
