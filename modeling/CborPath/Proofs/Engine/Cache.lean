import CborPath.Engine.Cache
import Mathlib.Data.List.Dedup
import Mathlib.Data.List.Induction
import Mathlib.Data.List.ReduceOption

/-!
# The history of a cache

Which queries a cache holds is told by what it has been asked for: the texts that compile among
those of the requests since it was last cleared, each with its own compilation.  Serial numbers are
given out once, so that two requests are answered by the same object exactly if they are about the
same text and the cache has not been cleared between them.
-/

namespace CborPath

/-- A text compiles to the query of that text, if it can be parsed. -/
theorem Query.compile_eq_ok_iff {text : String} {query : Query} :
    Query.compile text = .ok query ↔ query.source = text ∧ parse text = .ok query.expr := by
  obtain ⟨source, expr⟩ := query
  rw [Query.compile]
  cases parse text with
  | error e => simp [bind, Except.bind]
  | ok parsed =>
      simp only [bind, Except.bind, pure, Except.pure, Except.ok.injEq, Query.mk.injEq]
      rw [eq_comm (a := text)]

theorem Query.exists_compile_iff {text : String} :
    (∃ query, Query.compile text = .ok query) ↔ ∃ expr, parse text = .ok expr := by
  constructor
  · rintro ⟨query, h⟩
    exact ⟨query.expr, (compile_eq_ok_iff.1 h).2⟩
  · rintro ⟨expr, h⟩
    exact ⟨⟨text, expr⟩, compile_eq_ok_iff.2 ⟨rfl, h⟩⟩

/-- The texts that were asked for since all queries were last forgotten, the latest first.  A request
without a text is one to forget all queries. -/
def textsSinceClear (requests : List (Option String)) : List String :=
  (requests.reverse.takeWhile Option.isSome).reduceOption

@[simp] theorem textsSinceClear_nil :
    textsSinceClear [] = [] :=
  rfl

@[simp] theorem textsSinceClear_concat_some (requests : List (Option String)) (text : String) :
    textsSinceClear (requests ++ [some text]) = text :: textsSinceClear requests := by
  simp [textsSinceClear]

@[simp] theorem textsSinceClear_concat_none (requests : List (Option String)) :
    textsSinceClear (requests ++ [none]) = [] := by
  simp [textsSinceClear]

namespace Cache

/-- The cache after one request. -/
def afterRequest (cache : Cache) : Option String → Cache
  | some text => (cache.getOrCompile text).2.1
  | none => cache.clear

/-- The cache after some requests. -/
def after (cache : Cache) (requests : List (Option String)) : Cache :=
  requests.foldl afterRequest cache

@[simp] theorem after_nil (cache : Cache) :
    cache.after [] = cache :=
  rfl

@[simp] theorem after_cons (cache : Cache) (request : Option String)
    (requests : List (Option String)) :
    cache.after (request :: requests) = (cache.afterRequest request).after requests :=
  rfl

theorem after_append (cache : Cache) (requests others : List (Option String)) :
    cache.after (requests ++ others) = (cache.after requests).after others :=
  List.foldl_append

/-- A text is compiled into a new object, or does not compile. -/
theorem compileFresh_cases (cache : Cache) (text : String) :
    (∃ e, Query.compile text = .error e ∧ cache.compileFresh text = (.error e, cache)) ∨
      ∃ query, Query.compile text = .ok query ∧
        cache.compileFresh text = (.ok ⟨cache.nextSerial, query⟩,
          { cache with nextSerial := cache.nextSerial + 1 }) := by
  unfold compileFresh
  cases Query.compile text with
  | error e => exact .inl ⟨e, rfl, rfl⟩
  | ok query => exact .inr ⟨query, rfl, rfl⟩

/-- A request for a text is answered from the entries, fails, or adds an entry with a new serial
number. -/
theorem getOrCompile_cases (cache : Cache) (text : String) :
    (∃ shared, cache.find? text = some shared ∧
      cache.getOrCompile text = (.ok shared, cache, [.cacheHit text])) ∨
    (∃ e, cache.find? text = none ∧ Query.compile text = .error e ∧
      cache.getOrCompile text = (.error e, cache, [.cacheMiss text])) ∨
    ∃ query, cache.find? text = none ∧ Query.compile text = .ok query ∧
      cache.getOrCompile text = (.ok ⟨cache.nextSerial, query⟩,
        { entries := (text, ⟨cache.nextSerial, query⟩) :: cache.entries,
          nextSerial := cache.nextSerial + 1 },
        [.cacheMiss text]) := by
  unfold getOrCompile
  cases hFind : cache.find? text with
  | some shared => exact .inl ⟨shared, rfl, rfl⟩
  | none =>
      obtain ⟨e, hCompile, hFresh⟩ | ⟨query, hCompile, hFresh⟩ := cache.compileFresh_cases text
      · exact .inr (.inl ⟨e, rfl, hCompile, by rw [hFresh]⟩)
      · exact .inr (.inr ⟨query, rfl, hCompile, by rw [hFresh]⟩)

/-- The record of whether a text is cached. -/
def lookupRecord (cache : Cache) (text : String) : LogRecord :=
  if (cache.find? text).isSome then .cacheHit text else .cacheMiss text

/-- A request logs whether its text was cached. -/
theorem log_getOrCompile (cache : Cache) (text : String) :
    (cache.getOrCompile text).2.2 = [cache.lookupRecord text] := by
  rw [lookupRecord]
  obtain ⟨shared, hFind, hGet⟩ | ⟨e, hFind, -, hGet⟩ | ⟨query, hFind, -, hGet⟩ :=
    cache.getOrCompile_cases text <;> rw [hGet, hFind] <;> rfl

theorem mem_entries_of_find? {cache : Cache} {text : String} {shared : Shared}
    (h : cache.find? text = some shared) :
    (text, shared) ∈ cache.entries := by
  obtain ⟨before, after, hEntries, -⟩ := List.lookup_eq_some_iff.1 h
  rw [hEntries]
  exact List.mem_append_right _ List.mem_cons_self

theorem find?_eq_none_iff {cache : Cache} {text : String} :
    cache.find? text = none ↔ text ∉ cache.entries.map Prod.fst := by
  rw [find?, List.lookup_eq_none_iff]
  simp only [bne_iff_ne, List.mem_map, not_exists, not_and]
  exact ⟨fun h entry hMem hEq => h entry hMem hEq.symm, fun h entry hMem hEq => h entry hMem hEq.symm⟩

/-- What the entries of a cache satisfy, whatever it has been asked for: each is the compilation of
its text, and texts and serial numbers tell entries apart. -/
structure Sound (cache : Cache) : Prop where
  compiled : ∀ entry ∈ cache.entries, Query.compile entry.1 = .ok entry.2.query
  texts_nodup : (cache.entries.map Prod.fst).Nodup
  serials_nodup : (cache.entries.map fun entry => entry.2.serial).Nodup
  serial_lt : ∀ entry ∈ cache.entries, entry.2.serial < cache.nextSerial

theorem sound_of_entries_eq_nil {cache : Cache} (h : cache.entries = []) :
    cache.Sound := by
  constructor <;> simp [h]

theorem sound_empty :
    empty.Sound :=
  sound_of_entries_eq_nil rfl

section Sound

variable {cache : Cache} (h : cache.Sound)
include h

theorem Sound.afterRequest (request : Option String) :
    (cache.afterRequest request).Sound := by
  cases request with
  | none => exact sound_of_entries_eq_nil rfl
  | some text =>
      rw [Cache.afterRequest]
      obtain ⟨shared, -, hGet⟩ | ⟨e, -, -, hGet⟩ | ⟨query, hFind, hCompile, hGet⟩ :=
        cache.getOrCompile_cases text
      · rw [hGet]
        exact h
      · rw [hGet]
        exact h
      · rw [hGet]
        have hNew : cache.nextSerial ∉ cache.entries.map fun entry => entry.2.serial := by
          intro hMem
          obtain ⟨entry, hEntry, hEq⟩ := List.mem_map.1 hMem
          exact absurd hEq (Nat.ne_of_lt (h.serial_lt entry hEntry))
        refine ⟨fun entry hMem => ?_, ?_, ?_, fun entry hMem => ?_⟩
        · rcases List.mem_cons.1 hMem with rfl | hOld
          · exact hCompile
          · exact h.compiled entry hOld
        · exact List.nodup_cons.2 ⟨find?_eq_none_iff.1 hFind, h.texts_nodup⟩
        · exact List.nodup_cons.2 ⟨hNew, h.serials_nodup⟩
        · rcases List.mem_cons.1 hMem with rfl | hOld
          · exact Nat.lt_succ_self _
          · exact Nat.lt_succ_of_lt (h.serial_lt entry hOld)

theorem Sound.after (requests : List (Option String)) :
    (cache.after requests).Sound := by
  induction requests generalizing cache with
  | nil => exact h
  | cons request requests ih => exact ih (h.afterRequest request)

/-- What a request is answered with is the compilation of its text. -/
theorem Sound.compile_eq (text : String) :
    (cache.getOrCompile text).1.map Shared.query = Query.compile text := by
  obtain ⟨shared, hFind, hGet⟩ | ⟨e, -, hCompile, hGet⟩ | ⟨query, -, hCompile, hGet⟩ :=
    cache.getOrCompile_cases text
  · rw [hGet, h.compiled _ (mem_entries_of_find? hFind)]
    rfl
  · rw [hGet, hCompile]
    rfl
  · rw [hGet, hCompile]
    rfl

/-- Serial numbers tell texts apart. -/
theorem Sound.entry_eq {entry other : String × Shared} (hEntry : entry ∈ cache.entries)
    (hOther : other ∈ cache.entries) (hSerial : entry.2.serial = other.2.serial) :
    entry = other :=
  List.inj_on_of_nodup_map h.serials_nodup hEntry hOther hSerial

end Sound

section Keys

/-- A request for a text adds the text to the keys if it compiles. -/
theorem mem_texts_getOrCompile (cache : Cache) (text other : String) :
    other ∈ (cache.getOrCompile text).2.1.entries.map Prod.fst ↔
      (other = text ∧ ∃ query, Query.compile text = .ok query) ∨
        other ∈ cache.entries.map Prod.fst := by
  obtain ⟨shared, hFind, hGet⟩ | ⟨e, -, hCompile, hGet⟩ | ⟨query, -, hCompile, hGet⟩ :=
    cache.getOrCompile_cases text
  · have hMem := mem_entries_of_find? hFind
    rw [hGet]
    constructor
    · exact .inr
    · rintro (⟨rfl, -⟩ | hOther)
      · exact List.mem_map_of_mem hMem
      · exact hOther
  · rw [hGet, hCompile]
    simp
  · rw [hGet, hCompile]
    simp

/-- The keys of a cache that was empty at first. -/
theorem mem_texts_after (requests : List (Option String)) (text : String) :
    text ∈ (empty.after requests).entries.map Prod.fst ↔
      text ∈ textsSinceClear requests ∧ ∃ query, Query.compile text = .ok query := by
  induction requests using List.reverseRecOn with
  | nil => simp [empty]
  | append_singleton requests request ih =>
      rw [after_append, after_cons, after_nil]
      cases request with
      | none => simp [afterRequest, clear]
      | some other =>
          rw [afterRequest, mem_texts_getOrCompile, ih, textsSinceClear_concat_some, List.mem_cons,
            or_and_right]
          exact or_congr_left (and_congr_right fun hEq => by rw [hEq])

end Keys

/-- Whether the entries of a cache are those of the texts that compile among some texts, each mapped
to the query that it compiles to. -/
structure Records (cache : Cache) (texts : List String) : Prop where
  key_iff : ∀ text, (∃ shared, cache.find? text = some shared) ↔
    text ∈ texts ∧ ∃ expr, parse text = .ok expr
  query_eq : ∀ text shared, cache.find? text = some shared →
    shared.query.source = text ∧ parse text = .ok shared.query.expr
  size_eq : cache.size = (texts.filter fun text => (parse text).isOk).dedup.length

theorem isOk_parse_iff {text : String} :
    (parse text).isOk = true ↔ ∃ expr, parse text = .ok expr := by
  cases parse text <;> simp [Except.isOk, Except.toBool]

/-- A cache that was empty at first records the texts that it was asked for since it was last
cleared. -/
theorem records_after (requests : List (Option String)) :
    (empty.after requests).Records (textsSinceClear requests) := by
  have hSound := sound_empty.after requests
  have hKeys := mem_texts_after requests
  simp only [Query.exists_compile_iff] at hKeys
  refine ⟨fun text => ?_, fun text shared hFind => ?_, ?_⟩
  · rw [← hKeys, ← Option.ne_none_iff_exists', ne_eq, find?_eq_none_iff, not_not]
  · have hCompile : Query.compile text = .ok shared.query :=
      hSound.compiled (text, shared) (mem_entries_of_find? hFind)
    rwa [Query.compile_eq_ok_iff] at hCompile
  · have hPerm : ((empty.after requests).entries.map Prod.fst).Perm
        ((textsSinceClear requests).filter fun text => (parse text).isOk).dedup := by
      rw [List.perm_ext_iff_of_nodup hSound.texts_nodup (List.nodup_dedup _)]
      intro text
      rw [hKeys, List.mem_dedup, List.mem_filter, isOk_parse_iff]
    rw [size, ← hPerm.length_eq, List.length_map]

section Sharing

variable {cache : Cache}

theorem nextSerial_le_after (cache : Cache) (requests : List (Option String)) :
    cache.nextSerial ≤ (cache.after requests).nextSerial := by
  induction requests generalizing cache with
  | nil => exact Nat.le_refl _
  | cons request requests ih =>
      refine Nat.le_trans ?_ (ih (cache.afterRequest request))
      cases request with
      | none => exact Nat.le_refl _
      | some text =>
          rw [afterRequest]
          obtain ⟨shared, -, hGet⟩ | ⟨e, -, -, hGet⟩ | ⟨query, -, -, hGet⟩ :=
            cache.getOrCompile_cases text
          · exact Nat.le_of_eq (by rw [hGet])
          · exact Nat.le_of_eq (by rw [hGet])
          · rw [hGet]
            exact Nat.le_succ _

/-- An entry with an old serial number is an old entry, and has not been forgotten. -/
theorem mem_entries_of_serial_lt {requests : List (Option String)} {entry : String × Shared}
    (hMem : entry ∈ (cache.after requests).entries) (hLt : entry.2.serial < cache.nextSerial) :
    entry ∈ cache.entries ∧ none ∉ requests := by
  induction requests generalizing cache with
  | nil => exact ⟨hMem, List.not_mem_nil⟩
  | cons request requests ih =>
      have hLe := cache.nextSerial_le_after [request]
      obtain ⟨hStep, hRest⟩ := ih hMem (Nat.lt_of_lt_of_le hLt hLe)
      cases request with
      | none => cases hStep
      | some text =>
          refine ⟨?_, by simpa using hRest⟩
          rw [afterRequest] at hStep
          obtain ⟨shared, -, hGet⟩ | ⟨e, -, -, hGet⟩ | ⟨query, -, -, hGet⟩ :=
            cache.getOrCompile_cases text
          · rwa [hGet] at hStep
          · rwa [hGet] at hStep
          · rw [hGet] at hStep
            rcases List.mem_cons.1 hStep with rfl | hOld
            · exact absurd hLt (Nat.lt_irrefl _)
            · exact hOld

/-- Entries stay until all are forgotten. -/
theorem find?_after_of_not_mem {requests : List (Option String)} {text : String} {shared : Shared}
    (hFind : cache.find? text = some shared) (hNone : none ∉ requests) :
    (cache.after requests).find? text = some shared := by
  induction requests generalizing cache with
  | nil => exact hFind
  | cons request requests ih =>
      rw [List.mem_cons, not_or] at hNone
      refine ih ?_ hNone.2
      cases request with
      | none => exact absurd rfl hNone.1
      | some other =>
          rw [afterRequest]
          by_cases hEq : text = other
          · subst hEq
            refine find?_getOrCompile_self ?_
            rw [getOrCompile, hFind]
          · rw [find?_getOrCompile_of_ne hEq, hFind]

/-- Two requests are answered by the same object exactly if they are about the same text and all
queries have not been forgotten between them. -/
theorem Sound.serial_eq_iff (h : cache.Sound) {text other : String} {shared shared' : Shared}
    {between : List (Option String)} (hFirst : (cache.getOrCompile text).1 = .ok shared)
    (hSecond : (((cache.getOrCompile text).2.1.after between).getOrCompile other).1 =
      .ok shared') :
    (shared.serial = shared'.serial ↔ text = other ∧ none ∉ between) ∧
      (shared.serial = shared'.serial → shared = shared') := by
  have hFound := find?_getOrCompile_self hFirst
  have hSound := h.afterRequest (some text)
  rw [Cache.afterRequest] at hSound
  generalize (cache.getOrCompile text).2.1 = kept at *
  have hMem := mem_entries_of_find? hFound
  have hLt := hSound.serial_lt _ hMem
  have hSame : shared.serial = shared'.serial →
      (text, shared) = (other, shared') ∧ none ∉ between := by
    intro hSerial
    obtain ⟨found, hFind, hGet⟩ | ⟨e, -, -, hGet⟩ | ⟨query, -, -, hGet⟩ :=
      (kept.after between).getOrCompile_cases other
    · rw [hGet] at hSecond
      cases hSecond
      obtain ⟨hOld, hNone⟩ := mem_entries_of_serial_lt (mem_entries_of_find? hFind) (hSerial ▸ hLt)
      exact ⟨hSound.entry_eq hMem hOld hSerial, hNone⟩
    · rw [hGet] at hSecond
      cases hSecond
    · -- A new object has a serial number that no entry had.
      rw [hGet] at hSecond
      cases hSecond
      have hLe := kept.nextSerial_le_after between
      simp only at hSerial hLt
      omega
  refine ⟨⟨fun hSerial => ?_, ?_⟩, fun hSerial => congrArg Prod.snd (hSame hSerial).1⟩
  · exact ⟨congrArg Prod.fst (hSame hSerial).1, (hSame hSerial).2⟩
  · rintro ⟨rfl, hNone⟩
    rw [getOrCompile, find?_after_of_not_mem hFound hNone] at hSecond
    cases hSecond
    rfl

end Sharing

end Cache

end CborPath
