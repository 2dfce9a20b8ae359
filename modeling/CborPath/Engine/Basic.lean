import CborPath.Engine.Cache
import CborPath.Error
import CborPath.Query.Eval

/-!
# Query engines

An engine compiles texts, through its cache if it is configured to, and evaluates them at the nodes
of trees.  Besides its result every request gives the engine as it is afterwards, and the records
that it logs.
-/

namespace CborPath

/-- How an engine works. -/
structure Configuration where
  cacheExpressions : Bool := true
  deriving DecidableEq, Repr

/-- A configuration with its cache.  The cache stays empty if it is not used. -/
structure Engine where
  configuration : Configuration := {}
  cache : Cache := {}

/-- The outcome of a request to an engine. -/
structure Outcome (α : Type) where
  result : Except Error α
  engine : Engine
  log : List LogRecord

namespace Engine

/-- Compiles a text. -/
def compile (engine : Engine) (text : String) : Outcome Shared :=
  if engine.configuration.cacheExpressions then
    let (result, cache, log) := engine.cache.getOrCompile text
    ⟨result.mapError (Error.invalidExpression text), { engine with cache := cache }, log⟩
  else
    let (result, cache) := engine.cache.compileFresh text
    ⟨result.mapError (Error.invalidExpression text), { engine with cache := cache }, []⟩

/-- Forgets all cached queries. -/
def clear (engine : Engine) : Engine :=
  { engine with cache := engine.cache.clear }

/-- Compiles a text and runs it. -/
def run {α : Type} (engine : Engine) (text : String) (use : Query → Except EvalError α) :
    Outcome α :=
  let compiled := engine.compile text
  match compiled.result with
  | .error e => ⟨.error e, compiled.engine, compiled.log⟩
  | .ok shared =>
      ⟨(use shared.query).mapError (Error.evaluation text), compiled.engine, compiled.log⟩

/-- All nodes that match a text, in document order. -/
def queryAll (engine : Engine) (tree : Tree) (node : NodeId) (text : String) :
    Outcome (List NodeId) :=
  let outcome := engine.run text fun query => query.expr.select tree.navigator node
  match outcome.result with
  | .error _ => outcome
  | .ok nodes => { outcome with log := outcome.log ++ [.matched text nodes.length] }

/-- The first node that matches a text. -/
def queryFirst (engine : Engine) (tree : Tree) (node : NodeId) (text : String) :
    Outcome (Option NodeId) :=
  engine.run text fun query => do
    return (← query.expr.select tree.navigator node).head?

/-- The value of a text. -/
def evaluate (engine : Engine) (tree : Tree) (node : NodeId) (text : String) :
    Outcome (Answer NodeId) :=
  engine.run text fun query => query.expr.evaluate tree.navigator node

end Engine

/-- What an answer is displayed as: of a node-set, the text of the first node. -/
def Answer.display (tree : Tree) : Answer NodeId → String
  | nodes positions => (positions.head?.map tree.innerText).getD ""
  | boolean b => booleanText b
  | number n => n.queryText
  | text s => s

end CborPath
