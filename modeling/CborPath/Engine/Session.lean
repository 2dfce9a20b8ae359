import CborPath.Engine.Basic

/-!
# Sessions

A session is a run of requests to one engine, each about a tree of its own.  Every request is
answered by the engine that the request before it left behind, whether that request failed or not.
-/

namespace CborPath

/-- What an engine can be asked. -/
inductive Request
  | compile (text : String)
  | queryAll (node : NodeId) (text : String)
  | queryFirst (node : NodeId) (text : String)
  | evaluate (node : NodeId) (text : String)
  | clear
  deriving DecidableEq, Repr

/-- The text that a request is about. -/
def Request.text? : Request → Option String
  | compile text => some text
  | queryAll _ text => some text
  | queryFirst _ text => some text
  | evaluate _ text => some text
  | clear => none

/-- What an engine replies to a request that succeeds. -/
inductive Reply
  | compiled (shared : Shared)
  | nodes (ids : List NodeId)
  | first (id : Option NodeId)
  | answer (answer : Answer NodeId)
  | cleared

/-- An outcome with its result put differently. -/
def Outcome.map {α β : Type} (f : α → β) (outcome : Outcome α) : Outcome β :=
  ⟨outcome.result.map f, outcome.engine, outcome.log⟩

namespace Engine

/-- Answers one request. -/
def serve (tree : Tree) (engine : Engine) : Request → Outcome Reply
  | .compile text => (engine.compile text).map Reply.compiled
  | .queryAll node text => (engine.queryAll tree node text).map Reply.nodes
  | .queryFirst node text => (engine.queryFirst tree node text).map Reply.first
  | .evaluate node text => (engine.evaluate tree node text).map Reply.answer
  | .clear => ⟨.ok .cleared, engine.clear, []⟩

/-- Answers requests one after the other. -/
def serveAll (engine : Engine) : List (Tree × Request) → List (Outcome Reply)
  | [] => []
  | (tree, request) :: steps =>
      engine.serve tree request :: serveAll (engine.serve tree request).engine steps

/-- The engine after some requests. -/
def after (engine : Engine) (steps : List (Tree × Request)) : Engine :=
  steps.foldl (fun engine step => (engine.serve step.1 step.2).engine) engine

end Engine

end CborPath
