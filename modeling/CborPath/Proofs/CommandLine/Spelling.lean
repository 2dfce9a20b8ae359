import CborPath.CommandLine.Arguments

/-!
# Spellings of commands

Every command on a source that can be named has a spelling: its options first, then two hyphens, so that
an expression may begin with one, and then the expression and the path.  Adding the option for no cache
to arguments that do without it asks for the same command, but without the cache.
-/

namespace CborPath

namespace CommandLine

/-- The name of an output form. -/
def OutputForm.spelling : OutputForm → String
  | value => "value"
  | xml => "xml"
  | name => "name"

/-- The name of a command. -/
def CommandName.spelling : CommandName → String
  | query => "query"
  | xml => "xml"
  | eval => "eval"

/-- The arguments that ask for options. -/
def Options.arguments (options : Options) : List String :=
  (if options.noCache then ["--no-cache"] else []) ++ if options.exitStatus then ["-e"] else []

/-- The arguments that ask for a source. -/
def Source.arguments : Source → List String
  | standardInput => []
  | file path => [path]

namespace Command

/-- The name of the command. -/
def name : Command → CommandName
  | query _ _ _ _ => .query
  | xml _ => .xml
  | eval _ _ _ => .eval

/-- The options of the command. -/
def optionArguments : Command → List String
  | query _ _ form options => "-o" :: form.spelling :: options.arguments
  | xml _ => []
  | eval _ _ options => options.arguments

/-- The positional arguments of the command. -/
def positionals : Command → List String
  | query expression source _ _ => expression :: source.arguments
  | xml source => source.arguments
  | eval expression source _ => expression :: source.arguments

/-- Arguments that ask for the command. -/
def arguments (command : Command) : List String :=
  command.name.spelling :: (command.optionArguments ++ "--" :: command.positionals)

/-- What is gathered from the options of the command. -/
def gathered : Command → Gathered
  | query _ _ form options => { form? := some form, options := options }
  | xml _ => {}
  | eval _ _ options => { options := options }

theorem foldlM_optionArguments (command : Command) :
    command.optionArguments.foldlM (Gathered.add command.name) {} = some command.gathered := by
  cases command with
  | query expression source form options =>
      obtain ⟨noCache, exitStatus⟩ := options
      cases form <;> cases noCache <;> cases exitStatus <;> rfl
  | xml source => rfl
  | eval expression source options =>
      obtain ⟨noCache, exitStatus⟩ := options
      cases noCache <;> cases exitStatus <;> rfl

end Command

namespace Gathered

theorem add_hyphens (command : CommandName) {g : Gathered} (hForm : g.awaitsForm = false)
    (hEnded : g.optionsEnded = false) :
    g.add command "--" = some { g with optionsEnded := true } := by
  rw [add, hForm, if_neg Bool.false_ne_true, hEnded, if_neg Bool.false_ne_true]
  rfl

/-- Arguments after two hyphens are positional, whatever they look like. -/
theorem foldlM_add_of_optionsEnded (command : CommandName) {g : Gathered}
    (hForm : g.awaitsForm = false) (hEnded : g.optionsEnded = true) (arguments : List String) :
    arguments.foldlM (add command) g = some { g with positionals := g.positionals ++ arguments } := by
  induction arguments generalizing g with
  | nil => simp
  | cons argument arguments ih =>
      have hAdd : g.add command argument = some (g.addPositional argument) := by
        rw [add, hForm, if_neg Bool.false_ne_true, hEnded, if_pos rfl]
      have hRest := ih (g := g.addPositional argument) hForm hEnded
      rw [List.foldlM_cons, hAdd, Option.bind_eq_bind, Option.bind_some, hRest, addPositional,
        List.append_assoc]
      rfl

theorem sourceOf?_arguments {source : Source} (h : source ≠ .file "") :
    sourceOf? source.arguments = some source := by
  cases source with
  | standardInput => rfl
  | file path =>
      have hPath : ¬path.isEmpty = true := by
        rw [String.isEmpty_iff]
        rintro rfl
        exact h rfl
      rw [Source.arguments, sourceOf?, if_neg hPath]

end Gathered

/-- The arguments after the name of a command are gathered one after the other. -/
theorem Request.ofArguments?_cons (name : CommandName) (others : List String) :
    Request.ofArguments? (name.spelling :: others) =
      (others.foldlM (Gathered.add name) {}).bind fun g => (g.command? name).map Request.run := by
  have hVersion : ¬(name.spelling == "--version" ||
      ['-', 'V'].isPrefixOf name.spelling.toList) = true := by
    cases name <;> decide
  have hName : CommandName.ofName? name.spelling = some name := by
    cases name <;> rfl
  rw [Request.ofArguments?, if_neg hVersion, hName, Option.bind_eq_bind, Option.bind_some]
  cases others.foldlM (Gathered.add name) {} with
  | none => rfl
  | some g =>
      rw [Option.bind_eq_bind, Option.bind_some, Option.bind_some]
      cases g.command? name <;> rfl

/-- What is gathered from all arguments of the spelling of a command makes the command. -/
theorem Command.command?_gathered {command : Command} (h : command.source ≠ .file "") :
    Gathered.command? command.name
      { command.gathered with positionals := command.positionals, optionsEnded := true } =
        some command := by
  have hSource : Gathered.sourceOf? command.source.arguments = some command.source :=
    Gathered.sourceOf?_arguments h
  cases command with
  | query expression source form options =>
      exact congrArg (Option.map (query expression · form options)) hSource
  | xml source => exact congrArg (Option.map xml) hSource
  | eval expression source options => exact congrArg (Option.map (eval expression · options)) hSource

/-- The spelling of a command asks for the command. -/
theorem Request.ofArguments?_arguments {command : Command} (h : command.source ≠ .file "") :
    Request.ofArguments? command.arguments = some (.run command) := by
  obtain ⟨hForm, hEnded, hPositionals⟩ : command.gathered.awaitsForm = false ∧
      command.gathered.optionsEnded = false ∧ command.gathered.positionals = [] := by
    cases command <;> exact ⟨rfl, rfl, rfl⟩
  have hAll := Gathered.foldlM_add_of_optionsEnded command.name
    (g := { command.gathered with optionsEnded := true }) hForm rfl command.positionals
  rw [Command.arguments, Request.ofArguments?_cons, List.foldlM_append, command.foldlM_optionArguments,
    Option.bind_eq_bind, Option.bind_some, List.foldlM_cons, Gathered.add_hyphens _ hForm hEnded,
    Option.bind_eq_bind, Option.bind_some, hAll, Option.bind_some]
  dsimp only
  rw [hPositionals, List.nil_append, Command.command?_gathered h]
  rfl

/-- Whether the command compiles its expression through the cache. -/
def Command.caches : Command → Bool
  | query _ _ _ options => !options.noCache
  | xml _ => false
  | eval _ _ options => !options.noCache

/-- The same command without the cache, where it has one. -/
def Command.withoutCache : Command → Command
  | query expression source form options =>
      query expression source form { options with noCache := true }
  | xml source => xml source
  | eval expression source options => eval expression source { options with noCache := true }

theorem Command.source_withoutCache (command : Command) :
    command.withoutCache.source = command.source := by
  cases command <;> rfl

namespace Gathered

theorem source_ne_of_sourceOf? {paths : List String} {source : Source} (h : sourceOf? paths = some source) :
    source ≠ .file "" := by
  rintro rfl
  unfold sourceOf? at h
  split at h
  · cases h
  · split at h
    · cases h
    · rename_i hPath
      cases h
      exact hPath rfl
  · cases h

/-- A command is made on a source that can be named, and with a cache only if it has options and the one
for no cache was not among them. -/
theorem of_command? {name : CommandName} {g : Gathered} {command : Command}
    (h : g.command? name = some command) :
    (∃ paths, sourceOf? paths = some command.source) ∧
      (command.caches = true → name.hasOptions = true ∧ g.options.noCache = false) := by
  unfold command? at h
  split at h
  · cases h
  split at h
  · obtain ⟨source, hSource, rfl⟩ := Option.map_eq_some_iff.1 h
    exact ⟨⟨_, hSource⟩, fun hCaches => absurd hCaches Bool.false_ne_true⟩
  · obtain ⟨source, hSource, rfl⟩ := Option.map_eq_some_iff.1 h
    exact ⟨⟨_, hSource⟩, fun hCaches => ⟨rfl, by simpa [Command.caches] using hCaches⟩⟩
  · obtain ⟨source, hSource, rfl⟩ := Option.map_eq_some_iff.1 h
    exact ⟨⟨_, hSource⟩, fun hCaches => ⟨rfl, by simpa [Command.caches] using hCaches⟩⟩
  · cases h

end Gathered

/-- No arguments ask for a document at the empty path. -/
theorem Request.source_ne_of_ofArguments? {arguments : List String} {command : Command}
    (h : Request.ofArguments? arguments = some (.run command)) :
    command.source ≠ .file "" := by
  unfold ofArguments? at h
  split at h
  · cases h
  split at h
  · cases h
  obtain ⟨name, -, hRest⟩ := Option.bind_eq_some_iff.1 h
  obtain ⟨g, -, hRest⟩ := Option.bind_eq_some_iff.1 hRest
  obtain ⟨_, hCommand, ⟨⟩⟩ := Option.bind_eq_some_iff.1 hRest
  obtain ⟨⟨paths, hSource⟩, -⟩ := Gathered.of_command? hCommand
  exact Gathered.source_ne_of_sourceOf? hSource

namespace Gathered

/-- The same, with the option for no cache. -/
def withoutCache (g : Gathered) : Gathered :=
  { g with options := { g.options with noCache := true } }

/-- Whether what a step does is the same with the option for no cache, if the step leaves it out. -/
def IgnoresCache (step : Gathered → Option Gathered) : Prop :=
  ∀ g g', step g = some g' → g'.options.noCache = false →
    g.options.noCache = false ∧ step g.withoutCache = some g'.withoutCache

theorem IgnoresCache.bind {step next : Gathered → Option Gathered} (h : IgnoresCache step)
    (hNext : IgnoresCache next) :
    IgnoresCache fun g => (step g).bind next := by
  intro g g'' hStep hNo
  obtain ⟨g', hFirst, hSecond⟩ := Option.bind_eq_some_iff.1 hStep
  obtain ⟨hNo', hSecond'⟩ := hNext g' g'' hSecond hNo
  obtain ⟨hNo'', hFirst'⟩ := h g g' hFirst hNo'
  refine ⟨hNo'', ?_⟩
  show (step g.withoutCache).bind next = _
  rw [hFirst', Option.bind_some, hSecond']

theorem ignoresCache_none : IgnoresCache fun _ => none :=
  fun _ _ hStep => nomatch hStep

theorem IgnoresCache.ite {step : Gathered → Option Gathered} (h : IgnoresCache step) (condition : Bool) :
    IgnoresCache fun g => if condition then step g else none := by
  cases condition with
  | false => exact ignoresCache_none
  | true => exact h

theorem ignoresCache_addPositional (argument : String) :
    IgnoresCache fun g => some (g.addPositional argument) := by
  rintro g _ ⟨⟩ hNo
  exact ⟨hNo, rfl⟩

theorem ignoresCache_setForm (name : String) :
    IgnoresCache fun g => g.setForm name := by
  intro g g' hStep hNo
  have hForm : g.withoutCache.form? = g.form? := rfl
  simp only [setForm, hForm] at hStep ⊢
  cases hOld : g.form? with
  | some form =>
      rw [hOld] at hStep
      cases hStep
  | none =>
      rw [hOld] at hStep
      cases hNew : OutputForm.ofName? name with
      | none =>
          rw [hNew] at hStep
          cases hStep
      | some form =>
          rw [hNew] at hStep
          cases hStep
          exact ⟨hNo, rfl⟩

theorem ignoresCache_setNoCache :
    IgnoresCache setNoCache := by
  intro g g' hStep hNo
  rw [setNoCache] at hStep
  split at hStep
  · cases hStep
  · cases hStep
    cases hNo

theorem ignoresCache_setExitStatus :
    IgnoresCache setExitStatus := by
  intro g g' hStep hNo
  rw [setExitStatus] at hStep
  split at hStep
  · cases hStep
  · rename_i hExit
    cases hStep
    exact ⟨hNo, if_neg hExit⟩

theorem ignoresCache_awaitForm :
    IgnoresCache awaitForm := by
  intro g g' hStep hNo
  rw [awaitForm] at hStep
  split at hStep
  · cases hStep
  · rename_i hForm
    cases hStep
    exact ⟨hNo, if_neg hForm⟩

theorem ignoresCache_addLong (command : CommandName) (name : List Char) (value? : Option (List Char)) :
    IgnoresCache fun g => g.addLong command name value? := by
  intro g g'
  dsimp only
  unfold addLong
  split
  · exact ignoresCache_setNoCache.ite _ g g'
  · exact ignoresCache_setExitStatus.ite _ g g'
  · exact ignoresCache_awaitForm.ite _ g g'
  · exact (ignoresCache_setForm _).ite _ g g'
  · exact ignoresCache_none g g'

theorem ignoresCache_addShort (command : CommandName) (letters : List Char) :
    IgnoresCache fun g => addShort command g letters := by
  induction letters with
  | nil =>
      rintro g _ ⟨⟩ hNo
      exact ⟨hNo, rfl⟩
  | cons letter letters ih =>
      intro g g'
      dsimp only
      unfold addShort
      split
      · rename_i hNil
        cases hNil
      · rename_i hLetters
        cases hLetters
        exact (ignoresCache_setExitStatus.bind ih).ite _ g g'
      · exact ignoresCache_awaitForm.ite _ g g'
      · exact (ignoresCache_setForm _).ite _ g g'
      · exact (ignoresCache_setForm _).ite _ g g'
      · exact ignoresCache_none g g'

/-- No argument but the option for no cache minds whether that has been given. -/
theorem ignoresCache_add (command : CommandName) (argument : String) :
    IgnoresCache fun g => g.add command argument := by
  intro g g'
  dsimp only
  have hAwaits : g.withoutCache.awaitsForm = g.awaitsForm := rfl
  have hEnded : g.withoutCache.optionsEnded = g.optionsEnded := rfl
  unfold add
  rw [hAwaits, hEnded]
  split
  · exact ignoresCache_setForm argument g g'
  split
  · exact ignoresCache_addPositional argument g g'
  split
  · rintro ⟨⟩ hNo
    exact ⟨hNo, rfl⟩
  · split
    · exact ignoresCache_addLong command _ _ g g'
    · exact ignoresCache_addLong command _ _ g g'
  · exact ignoresCache_addShort command _ g g'
  · exact ignoresCache_addPositional argument g g'

theorem ignoresCache_foldlM_add (command : CommandName) (arguments : List String) :
    IgnoresCache fun g => arguments.foldlM (add command) g := by
  induction arguments with
  | nil =>
      rintro g _ ⟨⟩ hNo
      exact ⟨hNo, rfl⟩
  | cons argument arguments ih =>
      intro g g'
      dsimp only
      rw [List.foldlM_cons, List.foldlM_cons]
      exact (ignoresCache_add command argument).bind ih g g'

theorem command?_withoutCache (name : CommandName) (g : Gathered) :
    g.withoutCache.command? name = (g.command? name).map Command.withoutCache := by
  have hAwaits : g.withoutCache.awaitsForm = g.awaitsForm := rfl
  have hPositionals : g.withoutCache.positionals = g.positionals := rfl
  unfold command?
  rw [hAwaits, hPositionals]
  split
  · rfl
  split
  · rw [Option.map_map]
    rfl
  · rw [Option.map_map]
    rfl
  · rw [Option.map_map]
    rfl
  · rfl

end Gathered

/-- Adding the option for no cache asks for the same command without the cache. -/
theorem Request.ofArguments?_noCache {name : CommandName} {others : List String} {command : Command}
    (h : Request.ofArguments? (name.spelling :: others) = some (.run command))
    (hCaches : command.caches = true) :
    Request.ofArguments? (name.spelling :: "--no-cache" :: others) = some (.run command.withoutCache) := by
  rw [ofArguments?_cons] at h
  obtain ⟨g, hGathered, hMap⟩ := Option.bind_eq_some_iff.1 h
  obtain ⟨_, hCommand, ⟨⟩⟩ := Option.map_eq_some_iff.1 hMap
  obtain ⟨hOptions, hNo⟩ := (Gathered.of_command? hCommand).2 hCaches
  obtain ⟨-, hGathered'⟩ := Gathered.ignoresCache_foldlM_add name others _ g hGathered hNo
  have hAdd : Gathered.add name {} "--no-cache" = some (Gathered.withoutCache {}) := by
    cases name with
    | xml => cases hOptions
    | query => rfl
    | eval => rfl
  rw [ofArguments?_cons, List.foldlM_cons, hAdd, Option.bind_eq_bind, Option.bind_some]
  dsimp only at hGathered'
  rw [hGathered', Option.bind_some, Gathered.command?_withoutCache, hCommand]
  rfl

end CommandLine

end CborPath
