import CborPath.Proofs.Document.Names
import CborPath.Proofs.Engine.Replies
import CborPath.Proofs.Query.Axes
import CborPath.Proofs.Query.Composition
import CborPath.Proofs.Query.Operands

/-!
# Names as queries

A name alone is a query, whatever it is spelled like: nothing goes on after it that could make it an
operator, an axis, a call or a node type.  It is read as one step to the children of that name, and so
finds what the accessors of the tree find: all child elements of the name in order, and the first of
them.
-/

namespace CborPath

/-- The query for the children of a name. -/
def Expr.ofName (name : String) : Expr :=
  .path false [.mk .child (.named name) []]

open Parse (isName)

/-- A name is read as the query for the children of that name. -/
theorem parse_name {name : String} (h : isName name.toList = true) :
    parse name = .ok (.ofName name) := by
  let form : PathForm Accepted := .relative (.select .omitted (.named name) h []) []
  have hText : name.toList = (Atom.path form).text := by
    show name.toList = [] ++ (name.toList ++ []) ++ []
    rw [List.append_nil, List.append_nil, List.nil_append]
  have hFits : (Atom.path form).Fits 63 := fun e hMem => nomatch hMem
  exact (Parse.oneDeeper_atom _ hText).parses.result hFits

theorem compile_name {name : String} (h : isName name.toList = true) :
    Query.compile name = .ok ⟨name, .ofName name⟩ :=
  Query.compile_eq_ok_iff.2 ⟨rfl, parse_name h⟩

namespace Tree

/-- The child elements of a name, in order. -/
def childElements (t : Tree) (id : NodeId) (name : String) : List NodeId :=
  (t.children id).filter fun child => (t.node child).kind = .element && (t.node child).name = name

theorem selectElement?_eq_head? (t : Tree) (id : NodeId) (name : String) :
    t.selectElement? id name = (t.childElements id name).head? := by
  rw [selectElement?, childElements, List.head?_filter]

/-- The children of a node are the same for its tree and for the navigator of its tree. -/
theorem navigator_children (t : Tree) (id : NodeId) :
    t.navigator.children id = t.children id := by
  rw [Navigator.children, children]
  have hFirst : t.navigator.firstChild? id = (t.node id).firstChild := rfl
  rw [hFirst]
  cases (t.node id).firstChild <;> rfl

theorem passes_named (t : Tree) (id : NodeId) (name : String) :
    t.navigator.passes id (.named name) =
      ((t.node id).kind = .element && (t.node id).name = name) := by
  have hType : t.navigator.nodeType id = (t.node id).kind.nodeType := rfl
  have hName : t.navigator.localName id = (t.node id).name := rfl
  rw [Navigator.passes, hType, hName]
  cases (t.node id).kind <;> rfl

theorem select_ofName (t : Tree) (id : NodeId) (name : String) :
    (Expr.ofName name).select t.navigator id = .ok (t.childElements id name) := by
  have hMatches : (t.navigator.axisNodes id .child).filter
      (t.navigator.passes · (.named name)) = t.childElements id name := by
    rw [Navigator.axisNodes, navigator_children, childElements]
    exact List.filter_congr fun child _ => t.passes_named child name
  rw [Expr.ofName, select_path, evalSteps_singleton, Step.select, if_neg Bool.false_ne_true, hMatches,
    evalPredicates]
  rfl

end Tree

namespace Engine

variable {engine : Engine} (h : engine.Sound) {text : String} {query : Query}
  (hCompile : Query.compile text = .ok query)
include h hCompile

/-- A text that compiles is run as its compilation, whatever the cache holds. -/
theorem Sound.result_run_of_compile {α : Type} (use : Query → Except EvalError α) :
    (engine.run text use).result = (use query).mapError (Error.evaluation text) := by
  rw [engine.result_run, h.query_compile, hCompile]
  rfl

end Engine

namespace Tree

/-- Names as queries to a tree that has been built.  Whatever has been asked before, the query of a
name finds all children that are elements of this name, in their order, and its first match is the one
that the accessor finds; the children of a node are those that have it as their parent.  The key of a
number has such a name, and different integers have different ones. -/
theorem query_name_of_build {value : Value} {t : Tree} (hBuild : build value = .ok t) :
    (∀ (caching : Bool) (steps : List (Tree × Request)) (n : Nat) (name : String),
      n < t.size → isName name.toList = true →
      (((Engine.fresh caching).after steps).queryAll t n name).result =
        .ok ((t.children n).filter fun child =>
          (t.node child).kind = .element && (t.node child).name = name) ∧
      (((Engine.fresh caching).after steps).queryFirst t n name).result =
        .ok (t.selectElement? n name) ∧
      t.children n = (List.range t.size).filter fun child => (t.node child).parent = some n) ∧
    (∀ key : Value, key.IsNumber →
      ∃ name, key.elementName = .ok name ∧ isName name.toList = true) ∧
    ∀ i j : Int, (Value.scalar (.integer i)).elementName = (Value.scalar (.integer j)).elementName →
      i = j := by
  obtain ⟨forest, hOutline, hDepicts⟩ := exists_depicts_of_build_eq_ok hBuild
  refine ⟨fun caching steps n name hId hName => ⟨?_, ?_, ?_⟩, fun key => Value.IsNumber.exists_elementName,
    fun i j => elementName_integer_injective⟩
  · have hSound := (Engine.sound_fresh caching).after steps
    rw [Engine.result_queryAll, hSound.result_run_of_compile (compile_name hName)]
    show ((Expr.ofName name).select t.navigator n).mapError _ = _
    rw [t.select_ofName]
    rfl
  · have hSound := (Engine.sound_fresh caching).after steps
    rw [Engine.queryFirst, hSound.result_run_of_compile (compile_name hName), t.selectElement?_eq_head?]
    dsimp only
    rw [t.select_ofName]
    rfl
  · rw [← t.navigator_children]
    exact hDepicts.children_places hId (Nat.le_refl t.size)

theorem query_name_of_build_pair :
    build (.sequence [.scalar .null, .scalar (.boolean true)]) = .ok pair ∧
      isName "element".toList = true ∧ isName "div".toList = true ∧
      ((Engine.fresh true).queryAll pair 0 "element").result = .ok [1, 3] ∧
      ((Engine.fresh true).queryFirst pair 0 "element").result = .ok (some 1) ∧
      ((Engine.fresh true).queryAll pair 0 "div").result = .ok [] ∧
      ∃ name, (Value.scalar (.integer (-7))).elementName = .ok name ∧ isName name.toList = true := by
  obtain ⟨hQueries, hNames, -⟩ := query_name_of_build build_pair
  obtain ⟨hAll, hFirst, -⟩ := hQueries true [] 0 "element" (by decide) (by decide)
  obtain ⟨hNone, -, -⟩ := hQueries true [] 0 "div" (by decide) (by decide)
  exact ⟨build_pair, by decide, by decide, hAll, hFirst, hNone, hNames _ (.inl ⟨-7, rfl⟩)⟩

end Tree

end CborPath
