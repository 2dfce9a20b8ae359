import CborPath.Engine.Session
import CborPath.Proofs.Engine.Cache
import CborPath.Proofs.Outcome

/-!
# The cache of a session

Every request of a session reaches the cache in one way only: by the compilation of its text.  An
engine with a cache therefore holds what its cache would hold if it were asked for the texts alone,
and an engine without one compiles every text anew.
-/

namespace CborPath

theorem Request.text?_eq_none_iff {request : Request} :
    request.text? = none ↔ request = .clear := by
  cases request <;> simp [text?]

namespace Engine

/-- A new engine, which caches or does not. -/
def fresh (caching : Bool) : Engine :=
  { configuration := { cacheExpressions := caching } }

section Requests

variable (engine : Engine)

theorem engine_run {α : Type} (text : String) (use : Query → Except EvalError α) :
    (engine.run text use).engine = (engine.compile text).engine := by
  unfold run
  dsimp only
  split <;> rfl

theorem log_run {α : Type} (text : String) (use : Query → Except EvalError α) :
    (engine.run text use).log = (engine.compile text).log := by
  unfold run
  dsimp only
  split <;> rfl

theorem engine_queryAll (tree : Tree) (node : NodeId) (text : String) :
    (engine.queryAll tree node text).engine = (engine.compile text).engine := by
  rw [← engine.engine_run text fun query => query.expr.select tree.navigator node]
  unfold queryAll
  dsimp only
  split <;> rfl

theorem log_queryAll (tree : Tree) (node : NodeId) (text : String) :
    ∃ matched, (engine.queryAll tree node text).log = (engine.compile text).log ++ matched ∧
      ∀ record ∈ matched, ∃ count, record = .matched text count := by
  rw [← engine.log_run text fun query => query.expr.select tree.navigator node]
  unfold queryAll
  dsimp only
  split
  · exact ⟨[], by simp, by simp⟩
  · exact ⟨_, rfl, by simp⟩

/-- A request leaves the engine as the compilation of its text does. -/
theorem engine_serve {request : Request} {text : String} (h : request.text? = some text)
    (tree : Tree) :
    (engine.serve tree request).engine = (engine.compile text).engine := by
  cases request with
  | compile _ =>
      cases h
      rfl
  | queryAll node _ =>
      cases h
      exact engine.engine_queryAll tree node text
  | queryFirst node _ =>
      cases h
      show (engine.queryFirst tree node text).engine = _
      exact engine.engine_run text _
  | evaluate node _ =>
      cases h
      show (engine.evaluate tree node text).engine = _
      exact engine.engine_run text _
  | clear => cases h

/-- A request logs what the compilation of its text does, and then matches at most. -/
theorem log_serve {request : Request} {text : String} (h : request.text? = some text)
    (tree : Tree) :
    ∃ matched, (engine.serve tree request).log = (engine.compile text).log ++ matched ∧
      ∀ record ∈ matched, ∃ count, record = .matched text count := by
  have hSame : ∀ log, log = (engine.compile text).log →
      ∃ matched, log = (engine.compile text).log ++ matched ∧
        ∀ record ∈ matched, ∃ count, record = .matched text count := by
    intro log hLog
    exact ⟨[], by simpa using hLog, by simp⟩
  cases request with
  | compile _ =>
      cases h
      exact hSame _ rfl
  | queryAll node _ =>
      cases h
      exact engine.log_queryAll tree node text
  | queryFirst node _ =>
      cases h
      exact hSame (engine.queryFirst tree node text).log (engine.log_run text _)
  | evaluate node _ =>
      cases h
      exact hSame (engine.evaluate tree node text).log (engine.log_run text _)
  | clear => cases h

theorem configuration_compile (text : String) :
    (engine.compile text).engine.configuration = engine.configuration := by
  unfold compile
  split <;> rfl

@[simp] theorem after_nil :
    engine.after [] = engine :=
  rfl

@[simp] theorem after_cons (tree : Tree) (request : Request) (steps : List (Tree × Request)) :
    engine.after ((tree, request) :: steps) = (engine.serve tree request).engine.after steps :=
  rfl

theorem after_append (steps others : List (Tree × Request)) :
    engine.after (steps ++ others) = (engine.after steps).after others :=
  List.foldl_append

section Kept

variable {p : Engine → Prop} (hCompile : ∀ engine text, p engine → p (engine.compile text).engine)
  (hClear : ∀ engine, p engine → p engine.clear)
include hCompile hClear

/-- What compiling a text and forgetting all queries keep, every request keeps. -/
theorem kept_serve {engine : Engine} (h : p engine) (tree : Tree) (request : Request) :
    p (engine.serve tree request).engine := by
  cases hText : request.text? with
  | none =>
      rw [Request.text?_eq_none_iff.1 hText]
      exact hClear engine h
  | some text =>
      rw [engine.engine_serve hText]
      exact hCompile engine text h

/-- What compiling a text and forgetting all queries keep, a session keeps. -/
theorem kept_after {engine : Engine} (h : p engine) (steps : List (Tree × Request)) :
    p (engine.after steps) := by
  induction steps generalizing engine with
  | nil => exact h
  | cons step steps ih => exact ih (kept_serve hCompile hClear h step.1 step.2)

end Kept

theorem configuration_serve (tree : Tree) (request : Request) :
    (engine.serve tree request).engine.configuration = engine.configuration :=
  kept_serve (p := fun later => later.configuration = engine.configuration)
    (fun later text hLater => (later.configuration_compile text).trans hLater)
    (fun _ hLater => hLater) rfl tree request

theorem configuration_after (steps : List (Tree × Request)) :
    (engine.after steps).configuration = engine.configuration :=
  kept_after (p := fun later => later.configuration = engine.configuration)
    (fun later text hLater => (later.configuration_compile text).trans hLater)
    (fun _ hLater => hLater) rfl steps

end Requests

section Caching

variable {engine : Engine} (h : engine.configuration.cacheExpressions = true)
include h

theorem compile_of_caching (text : String) :
    engine.compile text =
      ⟨(engine.cache.getOrCompile text).1.mapError (Error.invalidExpression text),
        { engine with cache := (engine.cache.getOrCompile text).2.1 },
        (engine.cache.getOrCompile text).2.2⟩ := by
  rw [compile, if_pos h]

theorem result_compile_of_caching {text : String} {shared : Shared} :
    (engine.compile text).result = .ok shared ↔
      (engine.cache.getOrCompile text).1 = .ok shared := by
  rw [compile_of_caching h, mapError_eq_ok_iff]

/-- A request reaches the cache by its text alone. -/
theorem cache_serve (tree : Tree) (request : Request) :
    (engine.serve tree request).engine.cache = engine.cache.afterRequest request.text? := by
  cases hText : request.text? with
  | none =>
      rw [Request.text?_eq_none_iff.1 hText]
      rfl
  | some text =>
      rw [engine.engine_serve hText, compile_of_caching h]
      rfl

/-- Requests leave the cache as their texts alone do. -/
theorem cache_after (steps : List (Tree × Request)) :
    (engine.after steps).cache = engine.cache.after (steps.map fun step => step.2.text?) := by
  induction steps generalizing engine with
  | nil => rfl
  | cons step steps ih =>
      obtain ⟨tree, request⟩ := step
      rw [after_cons, ih (by rwa [engine.configuration_serve]), cache_serve h, List.map_cons,
        Cache.after_cons]

theorem exists_log_serve (tree : Tree) {request : Request} {text : String}
    (hText : request.text? = some text) :
    ∃ matched, (engine.serve tree request).log = engine.cache.lookupRecord text :: matched ∧
      ∀ record ∈ matched, ∃ count, record = .matched text count := by
  obtain ⟨matched, hLog, hMatched⟩ := engine.log_serve hText tree
  rw [compile_of_caching h, engine.cache.log_getOrCompile] at hLog
  exact ⟨matched, hLog, hMatched⟩

end Caching

section NotCaching

variable {engine : Engine} (h : engine.configuration.cacheExpressions = false)
include h

theorem compile_of_not_caching (text : String) :
    engine.compile text =
      ⟨(engine.cache.compileFresh text).1.mapError (Error.invalidExpression text),
        { engine with cache := (engine.cache.compileFresh text).2 }, []⟩ := by
  rw [compile, if_neg (by rw [h]; exact Bool.false_ne_true)]

/-- A compilation is a new object, and the next has a greater serial number. -/
theorem serial_compile {text : String} {shared : Shared}
    (hResult : (engine.compile text).result = .ok shared) :
    engine.cache.nextSerial ≤ shared.serial ∧
      shared.serial < (engine.compile text).engine.cache.nextSerial := by
  rw [compile_of_not_caching h, mapError_eq_ok_iff] at hResult
  rw [compile_of_not_caching h]
  obtain ⟨e, -, hFresh⟩ | ⟨query, -, hFresh⟩ := engine.cache.compileFresh_cases text
  · rw [hFresh] at hResult
    cases hResult
  · rw [hFresh] at hResult ⊢
    cases hResult
    exact ⟨Nat.le_refl _, Nat.lt_succ_self _⟩

theorem nextSerial_le_compile (text : String) :
    engine.cache.nextSerial ≤ (engine.compile text).engine.cache.nextSerial := by
  rw [compile_of_not_caching h]
  obtain ⟨e, -, hFresh⟩ | ⟨query, -, hFresh⟩ := engine.cache.compileFresh_cases text
  · exact Nat.le_of_eq (by rw [hFresh])
  · rw [hFresh]
    exact Nat.le_succ _

theorem entries_compile (text : String) :
    (engine.compile text).engine.cache.entries = engine.cache.entries := by
  rw [compile_of_not_caching h]
  exact engine.cache.entries_compileFresh text

theorem nextSerial_le_after (steps : List (Tree × Request)) :
    engine.cache.nextSerial ≤ (engine.after steps).cache.nextSerial := by
  have hKept := kept_after
    (p := fun later => later.configuration.cacheExpressions = false ∧
      engine.cache.nextSerial ≤ later.cache.nextSerial)
    (fun later text hLater => ?_) (fun later hLater => hLater) ⟨h, Nat.le_refl _⟩ steps
  · exact hKept.2
  · rw [later.configuration_compile]
    exact ⟨hLater.1, Nat.le_trans hLater.2 (nextSerial_le_compile hLater.1 text)⟩

/-- An engine that does not cache keeps its cache empty. -/
theorem entries_after (hEmpty : engine.cache.entries = []) (steps : List (Tree × Request)) :
    (engine.after steps).cache.entries = [] := by
  have hKept := kept_after
    (p := fun later => later.configuration.cacheExpressions = false ∧ later.cache.entries = [])
    (fun later text hLater => ?_) (fun later hLater => ⟨hLater.1, rfl⟩) ⟨h, hEmpty⟩ steps
  · exact hKept.2
  · rw [later.configuration_compile, entries_compile hLater.1]
    exact hLater

end NotCaching

theorem none_mem_texts_iff {steps : List (Tree × Request)} :
    none ∉ (steps.map fun step => step.2.text?) ↔ ∀ step ∈ steps, step.2 ≠ .clear := by
  simp only [List.mem_map, Request.text?_eq_none_iff, not_exists, not_and, ne_eq]

/-- The cache of a session, and who shares its objects.  The cache of an engine that caches holds,
at every moment, the texts that compile among those of the requests since it was last cleared, each
mapped to its own compilation; a request logs a hit if its text is one of them, and a miss if not;
and two compilations give the same object exactly if they are of the same text and the cache has not
been cleared between them.  An engine that does not cache keeps its cache empty, and no two of its
compilations give the same object.  A cache on its own is like that of an engine that caches. -/
theorem records_of_session :
    (∀ steps : List (Tree × Request),
      ((fresh true).after steps).cache.Records
          (textsSinceClear (steps.map fun step => step.2.text?)) ∧
        (∀ tree request text, request.text? = some text →
          ∃ matched, (((fresh true).after steps).serve tree request).log =
              ((fresh true).after steps).cache.lookupRecord text :: matched ∧
            ∀ record ∈ matched, ∃ count, record = .matched text count) ∧
        ∀ tree, (((fresh true).after steps).serve tree .clear).log = []) ∧
    (∀ (before between : List (Tree × Request)) (tree : Tree) (text other : String)
        (shared shared' : Shared),
      (((fresh true).after before).compile text).result = .ok shared →
      (((fresh true).after (before ++ (tree, .compile text) :: between)).compile other).result =
        .ok shared' →
      (shared.serial = shared'.serial ↔ text = other ∧ ∀ step ∈ between, step.2 ≠ .clear) ∧
        (shared.serial = shared'.serial → shared = shared')) ∧
    (∀ steps : List (Tree × Request), ((fresh false).after steps).cache.size = 0) ∧
    (∀ (before between : List (Tree × Request)) (tree : Tree) (text other : String)
        (shared shared' : Shared),
      (((fresh false).after before).compile text).result = .ok shared →
      (((fresh false).after (before ++ (tree, .compile text) :: between)).compile other).result =
        .ok shared' →
      shared.serial ≠ shared'.serial) ∧
    (∀ requests : List (Option String),
      (Cache.empty.after requests).Records (textsSinceClear requests) ∧
        ∀ text, ((Cache.empty.after requests).getOrCompile text).2.2 =
          [(Cache.empty.after requests).lookupRecord text]) ∧
    ∀ (before between : List (Option String)) (text other : String) (shared shared' : Shared),
      ((Cache.empty.after before).getOrCompile text).1 = .ok shared →
      ((Cache.empty.after (before ++ some text :: between)).getOrCompile other).1 = .ok shared' →
      (shared.serial = shared'.serial ↔ text = other ∧ none ∉ between) ∧
        (shared.serial = shared'.serial → shared = shared') := by
  have hCaching : ∀ steps,
      ((fresh true).after steps).configuration.cacheExpressions = true := by
    intro steps
    rw [(fresh true).configuration_after]
    rfl
  have hNotCaching : ∀ steps,
      ((fresh false).after steps).configuration.cacheExpressions = false := by
    intro steps
    rw [(fresh false).configuration_after]
    rfl
  have hCache : ∀ steps : List (Tree × Request), ((fresh true).after steps).cache =
      Cache.empty.after (steps.map fun step => step.2.text?) :=
    cache_after rfl
  have hShared : ∀ before between text other shared shared',
      ((Cache.empty.after before).getOrCompile text).1 = .ok shared →
      ((Cache.empty.after (before ++ some text :: between)).getOrCompile other).1 = .ok shared' →
      (shared.serial = shared'.serial ↔ text = other ∧ none ∉ between) ∧
        (shared.serial = shared'.serial → shared = shared') := by
    intro before between text other shared shared' hFirst hSecond
    rw [Cache.after_append, Cache.after_cons] at hSecond
    exact (Cache.sound_empty.after before).serial_eq_iff hFirst hSecond
  refine ⟨fun steps => ⟨?_, fun tree request text hText => ?_, fun _ => rfl⟩, ?_, fun steps => ?_,
    ?_, fun requests => ⟨Cache.records_after requests, Cache.log_getOrCompile _⟩, hShared⟩
  · rw [hCache]
    exact Cache.records_after _
  · exact exists_log_serve (hCaching steps) tree hText
  · intro before between tree text other shared shared' hFirst hSecond
    rw [result_compile_of_caching (hCaching _), hCache] at hFirst hSecond
    rw [List.map_append, List.map_cons] at hSecond
    rw [← none_mem_texts_iff]
    exact hShared _ _ text other shared shared' hFirst hSecond
  · have hEmpty : ((fresh false).after steps).cache.entries = [] := entries_after rfl rfl steps
    exact congrArg List.length hEmpty
  · intro before between tree text other shared shared' hFirst hSecond
    have hOld := (serial_compile (hNotCaching before) hFirst).2
    have hNew := (serial_compile (hNotCaching _) hSecond).1
    rw [after_append, after_cons] at hNew
    rw [engine_serve _ rfl] at hNew
    have hConfiguration := configuration_compile ((fresh false).after before) text
    have hLe := nextSerial_le_after (hConfiguration ▸ hNotCaching before) between
    omega

theorem records_of_session_root :
    (((fresh true).after []).compile "/").result = .ok ⟨0, "/", .path true []⟩ ∧
      (((fresh true).after ([] ++ (default, .compile "/") :: [(default, .evaluate 0 "/")])).compile
        "/").result = .ok ⟨0, "/", .path true []⟩ ∧
      (((fresh true).after ([] ++ (default, .compile "/") :: [(default, .clear)])).compile
        "/").result = .ok ⟨1, "/", .path true []⟩ ∧
      (0 = 0 ↔ "/" = "/" ∧ ∀ step ∈ [((default : Tree), Request.evaluate 0 "/")],
        step.2 ≠ .clear) ∧
      (0 = 1 ↔ "/" = "/" ∧ ∀ step ∈ [((default : Tree), Request.clear)], step.2 ≠ .clear) := by
  have hFirst : (((fresh true).after []).compile "/").result = .ok ⟨0, "/", .path true []⟩ := rfl
  have hShared : (((fresh true).after
      ([] ++ (default, .compile "/") :: [(default, .evaluate 0 "/")])).compile "/").result =
        .ok ⟨0, "/", .path true []⟩ := rfl
  have hCleared : (((fresh true).after
      ([] ++ (default, .compile "/") :: [(default, .clear)])).compile "/").result =
        .ok ⟨1, "/", .path true []⟩ := rfl
  exact ⟨hFirst, hShared, hCleared,
    (records_of_session.2.1 _ _ _ _ _ _ _ hFirst hShared).1,
    (records_of_session.2.1 _ _ _ _ _ _ _ hFirst hCleared).1⟩

end Engine

end CborPath
