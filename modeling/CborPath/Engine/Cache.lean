import CborPath.Query.Parse

/-!
# Query cache

A cache keeps every query that was compiled through it until it is cleared.  Compiled queries carry
a serial number, so that one can tell whether two requests were answered by the same object.  Each
request says in a log record whether the cache could answer it.
-/

namespace CborPath

/-- How important a log record is. -/
inductive LogLevel
  | debug
  | trace
  deriving DecidableEq, Repr

/-- The name of a level. -/
def LogLevel.name : LogLevel → String
  | debug => "DEBUG"
  | trace => "TRACE"

/-- What happened, as far as it is logged. -/
inductive LogRecord
  | treeBuilt (size : Nat)
  | cacheHit (text : String)
  | cacheMiss (text : String)
  | matched (text : String) (count : Nat)
  deriving DecidableEq, Repr

namespace LogRecord

/-- The level of a record. -/
def level : LogRecord → LogLevel
  | treeBuilt _ => .debug
  | _ => .trace

/-- The wording of a record. -/
def message : LogRecord → String
  | treeBuilt size => "built tree with " ++ toString size ++ " nodes"
  | cacheHit text => "expression cache hit for " ++ text
  | cacheMiss text => "expression cache miss for " ++ text
  | matched text count => "query " ++ text ++ " matched " ++ toString count ++ " nodes"

end LogRecord

/-- A compiled query that may be shared, with the serial number of its compilation. -/
structure Shared where
  serial : Nat
  query : Query

/-- The compiled queries by their texts, and the next serial number. -/
structure Cache where
  entries : List (String × Shared) := []
  nextSerial : Nat := 0

namespace Cache

/-- The cache without entries. -/
def empty : Cache := {}

/-- The number of cached queries. -/
def size (cache : Cache) : Nat :=
  cache.entries.length

/-- The cached query for a text. -/
def find? (cache : Cache) (text : String) : Option Shared :=
  cache.entries.lookup text

/-- Forgets all queries.  Serial numbers are not used again. -/
def clear (cache : Cache) : Cache :=
  { cache with entries := [] }

/-- Compiles a text into a new object, without keeping it. -/
def compileFresh (cache : Cache) (text : String) : Except ParseError Shared × Cache :=
  match Query.compile text with
  | .error e => (.error e, cache)
  | .ok query => (.ok ⟨cache.nextSerial, query⟩, { cache with nextSerial := cache.nextSerial + 1 })

/-- The cached query for a text, which is compiled and kept if there is none yet.  What does not
compile is not kept. -/
def getOrCompile (cache : Cache) (text : String) :
    Except ParseError Shared × Cache × List LogRecord :=
  match cache.find? text with
  | some shared => (.ok shared, cache, [.cacheHit text])
  | none =>
      match cache.compileFresh text with
      | (.error e, cache) => (.error e, cache, [.cacheMiss text])
      | (.ok shared, cache) =>
          (.ok shared, { cache with entries := (text, shared) :: cache.entries },
            [.cacheMiss text])

@[simp] theorem find?_empty (text : String) :
    empty.find? text = none :=
  rfl

@[simp] theorem find?_clear (cache : Cache) (text : String) :
    cache.clear.find? text = none :=
  rfl

@[simp] theorem size_clear (cache : Cache) :
    cache.clear.size = 0 :=
  rfl

/-- What is compiled without being kept changes no entry. -/
theorem entries_compileFresh (cache : Cache) (text : String) :
    (cache.compileFresh text).2.entries = cache.entries := by
  unfold compileFresh
  split <;> rfl

/-- A request for one text changes nothing for any other. -/
theorem find?_getOrCompile_of_ne {cache : Cache} {text other : String} (h : other ≠ text) :
    (cache.getOrCompile text).2.1.find? other = cache.find? other := by
  have hFresh := entries_compileFresh cache text
  unfold getOrCompile
  split
  · rfl
  · split
    · rename_i hCompiled
      simp only [hCompiled] at hFresh
      simp only [find?, hFresh]
    · rename_i hCompiled
      simp only [hCompiled] at hFresh
      simp only [find?, hFresh, List.lookup_cons, beq_eq_false_iff_ne.2 h]

/-- After a request that succeeds, its result is the entry for its text. -/
theorem find?_getOrCompile_self {cache : Cache} {text : String} {shared : Shared}
    (h : (cache.getOrCompile text).1 = .ok shared) :
    (cache.getOrCompile text).2.1.find? text = some shared := by
  unfold getOrCompile at *
  split at h
  · rename_i hFound
    cases h
    simpa using hFound
  · split at h
    · cases h
    · cases h
      simp [find?]

end Cache

end CborPath
