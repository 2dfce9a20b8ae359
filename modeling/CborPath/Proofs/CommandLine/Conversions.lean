import CborPath.CommandLine.Run
import CborPath.Proofs.CommandLine.Spelling
import CborPath.Proofs.Query.Names

/-!
# Conversions on the command line

What the program prints for an expression is the expression's text, and the exit status that it was
asked for is the expression's truth, as the functions `string` and `boolean` of the query language have
them.  For a node-set the exit status is the same whether its nodes are printed or its value.  The cache
makes no difference.
-/

namespace CborPath

open Parse

/-- An answer is displayed as its text. -/
theorem Answer.display_eq_toText (tree : Tree) (answer : Answer NodeId) :
    answer.display tree = answer.toText tree.navigator := by
  cases answer with
  | nodes positions => cases positions <;> rfl
  | boolean b => rfl
  | number n => rfl
  | text s => rfl

/-- Whether a text is an expression. -/
def Compiles (text : String) : Prop :=
  ∃ query, Query.compile text = .ok query

/-- The call of a function on an expression, if it does not nest too deeply. -/
theorem parse_call (function : CoreFunction) {whole text : String} {expr call : Expr}
    (h : parse text = .ok expr) (hCall : function.call? [expr] = some call)
    (hWhole : whole.toList = function.spelling.toList ++ parenthesized text.toList)
    (hCompiles : Compiles whole) :
    parse whole = .ok call := by
  obtain ⟨query, hQuery⟩ := hCompiles
  let e : Accepted := ⟨text, expr, h⟩
  have hText : whole.toList = (Atom.filter (.call function [e] call hCall) [] []).text := by
    rw [hWhole]
    simp [e, Atom.text, Primary.text, argumentText_singleton, Accepted.part, bracketed, joinedText]
  have hParses := (oneDeeper_atom _ hText).parses
  refine hParses.result (of_not_not fun hNot => ?_)
  obtain ⟨position, hFailure⟩ := hParses.failure hNot
  rw [(Query.compile_eq_ok_iff.1 hQuery).2] at hFailure
  cases hFailure

section Calls

variable {P : Type} (nav : Navigator P) (expr : Expr) (node : P)

theorem evaluate_stringCall :
    (Expr.ofArgument .string expr).evaluate nav node =
      (expr.evaluate nav node).map fun answer => .text (answer.toText nav) := by
  rw [Expr.evaluate, Expr.evaluate, Expr.eval]
  cases expr.eval nav ⟨node, 1, 1⟩ <;> rfl

theorem evaluate_booleanCall :
    (Expr.unary .boolean expr).evaluate nav node =
      (expr.evaluate nav node).map fun answer => .boolean answer.toBoolean := by
  rw [Expr.evaluate, Expr.evaluate, Expr.eval]
  cases expr.eval nav ⟨node, 1, 1⟩ <;> rfl

end Calls

namespace CommandLine

/-- Whether a run ends with an error instead of an output. -/
def Report.Fails (report : Report) : Prop :=
  report.code = 1 ∧ report.output = "" ∧ report.error?.isSome = true

theorem Report.fails_ofError (e : Error) :
    (Report.ofError e).Fails := by
  unfold ofError
  split
  · exact ⟨rfl, rfl, rfl⟩
  · exact ⟨rfl, rfl, rfl⟩

theorem Options.sound_engine (options : Options) :
    options.engine.Sound :=
  Engine.sound_fresh (!options.noCache)

/-- What the evaluation of a text prints, and how it ends. -/
theorem Command.runOn_eval (tree : Tree) (source : Source) (options : Options) {text : String}
    {expr : Expr} (h : parse text = .ok expr) :
    (Command.eval text source options).runOn tree =
      match expr.evaluate tree.navigator Tree.root with
      | .error e => Report.ofError (.evaluation text e)
      | .ok answer => Report.found options answer.toBoolean (line (answer.toText tree.navigator)) := by
  have hCompile : Query.compile text = .ok ⟨text, expr⟩ := Query.compile_eq_ok_iff.2 ⟨rfl, h⟩
  have hResult : (options.engine.evaluate tree Tree.root text).result =
      (expr.evaluate tree.navigator Tree.root).mapError (Error.evaluation text) :=
    options.sound_engine.result_run_of_compile hCompile _
  rw [runOn, hResult]
  cases expr.evaluate tree.navigator Tree.root with
  | error e => rfl
  | ok answer =>
      show Report.found options answer.toBoolean (line (answer.display tree)) = _
      rw [answer.display_eq_toText]

/-- Arguments that ask for a command run it. -/
theorem run_of_ofArguments? {arguments : List String} {command : Command}
    (h : Request.ofArguments? arguments = some (.run command))
    (read : Source → Except ReadFailure (List UInt8)) :
    run arguments read = command.run (read command.source) := by
  rw [run, h]

/-- A spelled command runs on its document. -/
theorem run_arguments {command : Command} {read : Source → Except ReadFailure (List UInt8)}
    {bytes : List UInt8} {tree : Tree} (hPath : command.source ≠ .file "")
    (hRead : read command.source = .ok bytes) (hLoad : load (Input.ofBytes bytes) = .ok tree) :
    run command.arguments read = command.runOn tree := by
  rw [run_of_ofArguments? (Request.ofArguments?_arguments hPath), hRead]
  unfold Command.run
  dsimp only
  rw [hLoad]

/-- The cache makes no difference to what a command does to a document. -/
theorem Command.runOn_withoutCache (command : Command) (tree : Tree) :
    command.withoutCache.runOn tree = command.runOn tree := by
  cases command with
  | xml source => rfl
  | query expression source form options =>
      let uncached : Options := { options with noCache := true }
      have hSame : (uncached.engine.queryAll tree Tree.root expression).result =
          (options.engine.queryAll tree Tree.root expression).result := by
        rw [Engine.result_queryAll, Engine.result_queryAll]
        exact uncached.sound_engine.result_run_eq options.sound_engine _ _
      rw [withoutCache, runOn, runOn, hSame]
      rfl
  | eval expression source options =>
      let uncached : Options := { options with noCache := true }
      have hSame : (uncached.engine.evaluate tree Tree.root expression).result =
          (options.engine.evaluate tree Tree.root expression).result :=
        uncached.sound_engine.result_run_eq options.sound_engine _ _
      rw [withoutCache, runOn, runOn, hSame]
      rfl

theorem Command.run_withoutCache (command : Command) (bytes : Except ReadFailure (List UInt8)) :
    command.withoutCache.run bytes = command.run bytes := by
  unfold Command.run
  rw [command.source_withoutCache]
  cases bytes with
  | error e => rfl
  | ok bytes =>
      dsimp only
      cases load (Input.ofBytes bytes) with
      | error e => rfl
      | ok tree => exact command.runOn_withoutCache tree

section Agreement

variable {tree : Tree} {source : Source} {text called : String} {expr : Expr}
  (h : parse text = .ok expr)
include h

/-- What is printed for an expression is what is printed for its text. -/
theorem Command.runOn_stringCall (hCalled : parse called = .ok (.ofArgument .string expr))
    (noCache noCache' : Bool) :
    (∃ output,
      (Command.eval text source { noCache := noCache }).runOn tree =
        { code := 0, output := line output } ∧
      (Command.eval called source { noCache := noCache' }).runOn tree =
        { code := 0, output := line output }) ∨
    ((Command.eval text source { noCache := noCache }).runOn tree).Fails ∧
      ((Command.eval called source { noCache := noCache' }).runOn tree).Fails := by
  rw [runOn_eval tree source _ h, runOn_eval tree source _ hCalled, evaluate_stringCall]
  cases expr.evaluate tree.navigator Tree.root with
  | error e => exact .inr ⟨Report.fails_ofError _, Report.fails_ofError _⟩
  | ok answer => exact .inl ⟨answer.toText tree.navigator, rfl, rfl⟩

/-- The exit status tells of an expression what is printed for its truth. -/
theorem Command.runOn_booleanCall (hCalled : parse called = .ok (.unary .boolean expr))
    (noCache : Bool) (options : Options) :
    ((Command.eval text source { noCache := noCache, exitStatus := true }).runOn tree).code = 0 ↔
      ((Command.eval called source options).runOn tree).output = line "true" := by
  rw [runOn_eval tree source _ h, runOn_eval tree source _ hCalled, evaluate_booleanCall]
  cases expr.evaluate tree.navigator Tree.root with
  | error e =>
      obtain ⟨hCode, -⟩ := Report.fails_ofError (.evaluation text e)
      obtain ⟨-, hOutput, -⟩ := Report.fails_ofError (.evaluation called e)
      dsimp only [Except.map]
      rw [hCode, hOutput]
      decide
  | ok answer =>
      dsimp only [Except.map, Report.found, Answer.toText]
      cases answer.toBoolean with
      | false => exact iff_of_false (by simp) (by decide)
      | true => exact iff_of_true rfl rfl

/-- For a node-set the exit status is the same whether its nodes are printed or its value. -/
theorem Command.code_runOn_query {nodes : List NodeId}
    (hNodes : expr.evaluate tree.navigator Tree.root = .ok (.nodes nodes)) (form : OutputForm)
    (noCache noCache' : Bool) :
    ((Command.query text source form { noCache := noCache, exitStatus := true }).runOn tree).code =
      ((Command.eval text source { noCache := noCache', exitStatus := true }).runOn tree).code := by
  have hSelect : expr.select tree.navigator Tree.root = .ok nodes := by
    rw [Expr.select, hNodes]
    rfl
  let options : Options := { noCache := noCache, exitStatus := true }
  have hResult : (options.engine.queryAll tree Tree.root text).result = .ok nodes := by
    have hCompile : Query.compile text = .ok ⟨text, expr⟩ := Query.compile_eq_ok_iff.2 ⟨rfl, h⟩
    rw [Engine.result_queryAll, options.sound_engine.result_run_of_compile hCompile]
    dsimp only
    rw [hSelect]
    rfl
  rw [runOn_eval tree source _ h, hNodes, runOn, hResult]
  rfl

end Agreement

/-- The report on evaluating a text. -/
def evaluation (read : Source → Except ReadFailure (List UInt8)) (source : Source) (text : String)
    (options : Options) : Report :=
  run (Command.eval text source options).arguments read

/-- The report on the nodes that match a text. -/
def matching (read : Source → Except ReadFailure (List UInt8)) (source : Source) (text : String)
    (form : OutputForm) (options : Options) : Report :=
  run (Command.query text source form options).arguments read

/-- The command line agrees with the conversions of the query language.  An expression and its text are
printed as the same line, unless both fail; the exit status of an expression is 0 just when its truth is
printed as `true`; and that of a node-set is the same whether its nodes are printed or its value.  Adding
the option for no cache to any arguments asks for the same command and changes nothing of the report.
All this holds of all arguments, since what is reported depends on the command alone. -/
theorem run_conversions {source : Source} {read : Source → Except ReadFailure (List UInt8)}
    {bytes : List UInt8} {tree : Tree} {text : String} (hPath : source ≠ .file "")
    (hRead : read source = .ok bytes) (hLoad : load (Input.ofBytes bytes) = .ok tree)
    (hText : Compiles text) (hString : Compiles ("string(" ++ text ++ ")"))
    (hBoolean : Compiles ("boolean(" ++ text ++ ")")) :
    (∀ noCache noCache',
      (∃ output,
        evaluation read source text { noCache := noCache } = { code := 0, output := line output } ∧
        evaluation read source ("string(" ++ text ++ ")") { noCache := noCache' } =
          { code := 0, output := line output }) ∨
      (evaluation read source text { noCache := noCache }).Fails ∧
        (evaluation read source ("string(" ++ text ++ ")") { noCache := noCache' }).Fails) ∧
    (∀ noCache options,
      (evaluation read source text { noCache := noCache, exitStatus := true }).code = 0 ↔
        (evaluation read source ("boolean(" ++ text ++ ")") options).output = line "true") ∧
    (∀ expr nodes, parse text = .ok expr →
      expr.evaluate tree.navigator Tree.root = .ok (.nodes nodes) →
      ∀ form noCache noCache',
        (matching read source text form { noCache := noCache, exitStatus := true }).code =
          (evaluation read source text { noCache := noCache', exitStatus := true }).code) ∧
    (∀ (name : CommandName) (others : List String) (command : Command),
      Request.ofArguments? (name.spelling :: others) = some (.run command) → command.caches = true →
      Request.ofArguments? (name.spelling :: "--no-cache" :: others) = some (.run command.withoutCache) ∧
      run (name.spelling :: "--no-cache" :: others) read = run (name.spelling :: others) read) ∧
    ∀ arguments command, Request.ofArguments? arguments = some (.run command) →
      run arguments read = run command.arguments read := by
  obtain ⟨query, hQuery⟩ := hText
  have hParse := (Query.compile_eq_ok_iff.1 hQuery).2
  have hRun : ∀ command : Command, command.source = source →
      run command.arguments read = command.runOn tree := by
    rintro command rfl
    exact run_arguments hPath hRead hLoad
  have hEval : ∀ text options, evaluation read source text options =
      (Command.eval text source options).runOn tree := fun _ _ => hRun _ rfl
  have hQuery : ∀ text form options, matching read source text form options =
      (Command.query text source form options).runOn tree := fun _ _ _ => hRun _ rfl
  simp only [hEval, hQuery]
  have hStringCall := parse_call (.optional .string) hParse rfl
    (by simp [CoreFunction.spelling, NodeFunction.spelling, parenthesized]) hString
  have hBooleanCall := parse_call (.unary .boolean) hParse rfl
    (by simp [CoreFunction.spelling, UnaryFunction.spelling, parenthesized]) hBoolean
  refine ⟨Command.runOn_stringCall hParse hStringCall, Command.runOn_booleanCall hParse hBooleanCall,
    ?_, ?_, ?_⟩
  · intro expr nodes hExpr hNodes form noCache noCache'
    exact Command.code_runOn_query hExpr hNodes form noCache noCache'
  · intro name others command hAsks hCaches
    have hAsks' := Request.ofArguments?_noCache hAsks hCaches
    refine ⟨hAsks', ?_⟩
    rw [run_of_ofArguments? hAsks', run_of_ofArguments? hAsks, command.run_withoutCache,
      command.source_withoutCache]
  · intro arguments command hAsks
    rw [run_of_ofArguments? hAsks,
      run_of_ofArguments? (Request.ofArguments?_arguments (Request.source_ne_of_ofArguments? hAsks))]

/-- A sequence of null and true, as the document of every source. -/
def readPair : Source → Except ReadFailure (List UInt8) :=
  fun _ => .ok [0x82, 0xF6, 0xF5]

theorem run_conversions_pair :
    load (.ofBytes [0x82, 0xF6, 0xF5]) = .ok Tree.pair ∧
      Compiles "element" ∧ Compiles "string(element)" ∧ Compiles "boolean(element)" ∧
      ((evaluation readPair .standardInput "element" { exitStatus := true }).code = 0 ↔
        (evaluation readPair .standardInput "boolean(element)" {}).output = "true\n") ∧
      (matching readPair .standardInput "element" .name { exitStatus := true }).code =
        (evaluation readPair .standardInput "element" { exitStatus := true }).code ∧
      run ["eval", "--no-cache", "-e", "element"] readPair = run ["eval", "-e", "element"] readPair := by
  have hLoad : load (.ofBytes [0x82, 0xF6, 0xF5]) = .ok Tree.pair := by
    have hDecode : decode (.ofBytes [0x82, 0xF6, 0xF5]) =
        .ok (.sequence [.scalar .null, .scalar (.boolean true)]) := rfl
    rw [load, hDecode]
    exact congrArg (Except.mapError _) Tree.build_pair
  have hText : Compiles "element" := ⟨_, rfl⟩
  have hString : Compiles "string(element)" := ⟨_, rfl⟩
  have hBoolean : Compiles "boolean(element)" := ⟨_, rfl⟩
  have hRead : readPair .standardInput = .ok [0x82, 0xF6, 0xF5] := rfl
  obtain ⟨-, hTruth, hNodes, hNoCache, -⟩ :=
    run_conversions (by decide) hRead hLoad hText hString hBoolean
  have hSelected : (Expr.ofName "element").evaluate Tree.pair.navigator Tree.root = .ok (.nodes [1, 3]) :=
    rfl
  exact ⟨hLoad, hText, hString, hBoolean, hTruth false {}, hNodes _ _ rfl hSelected .name false false,
    (hNoCache .eval ["-e", "element"] _ rfl rfl).2⟩

end CommandLine

end CborPath
