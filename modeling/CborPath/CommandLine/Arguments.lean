/-!
# Command line arguments

The commands of the program and how they are spelled.  Options may stand before, among and after
the positional arguments, until two hyphens end them; short options combine, and an option's value
may be joined to it.  No option may be given twice.
-/

namespace CborPath

namespace CommandLine

/-- What is printed for each matching node. -/
inductive OutputForm
  | value
  | xml
  | name
  deriving DecidableEq, Repr

/-- The output form with a name. -/
def OutputForm.ofName? (name : String) : Option OutputForm :=
  if name == "value" then some .value
  else if name == "xml" then some .xml
  else if name == "name" then some .name
  else none

/-- Where the document is read from. -/
inductive Source
  | standardInput
  | file (path : String)
  deriving DecidableEq, Repr

/-- The name of a source in messages. -/
def Source.name : Source → String
  | standardInput => "stdin"
  | file path => path

/-- How an expression is compiled, and what the exit status says. -/
structure Options where
  noCache : Bool := false
  exitStatus : Bool := false
  deriving DecidableEq, Repr

/-- What the program is asked to do with a document. -/
inductive Command
  | query (expression : String) (source : Source) (form : OutputForm) (options : Options)
  | xml (source : Source)
  | eval (expression : String) (source : Source) (options : Options)
  deriving DecidableEq, Repr

/-- The source of a command's document. -/
def Command.source : Command → Source
  | query _ source _ _ => source
  | xml source => source
  | eval _ source _ => source

/-- What the program is asked to do. -/
inductive Request
  | run (command : Command)
  | version
  deriving DecidableEq, Repr

/-- The names of the commands. -/
inductive CommandName
  | query
  | xml
  | eval
  deriving DecidableEq, Repr

/-- The command with a name. -/
def CommandName.ofName? (name : String) : Option CommandName :=
  if name == "query" then some .query
  else if name == "xml" then some .xml
  else if name == "eval" then some .eval
  else none

/-- Whether a command has the options of engines. -/
def CommandName.hasOptions : CommandName → Bool
  | query | eval => true
  | xml => false

/-- Whether a command has an output form. -/
def CommandName.hasOutput : CommandName → Bool
  | query => true
  | _ => false

/-- What has been gathered from the arguments so far. -/
structure Gathered where
  positionals : List String := []
  form? : Option OutputForm := none
  options : Options := {}
  awaitsForm : Bool := false
  optionsEnded : Bool := false

namespace Gathered

/-- Adds a positional argument. -/
def addPositional (g : Gathered) (argument : String) : Gathered :=
  { g with positionals := g.positionals ++ [argument] }

/-- Sets the output form, once. -/
def setForm (g : Gathered) (name : String) : Option Gathered :=
  match g.form?, OutputForm.ofName? name with
  | none, some form => some { g with form? := some form, awaitsForm := false }
  | _, _ => none

/-- Sets the option that asks for no cache, once. -/
def setNoCache (g : Gathered) : Option Gathered :=
  if g.options.noCache then none
  else some { g with options := { g.options with noCache := true } }

/-- Sets the option that makes the exit status tell, once. -/
def setExitStatus (g : Gathered) : Option Gathered :=
  if g.options.exitStatus then none
  else some { g with options := { g.options with exitStatus := true } }

/-- Leaves the output form to the next argument. -/
def awaitForm (g : Gathered) : Option Gathered :=
  if g.form?.isSome then none else some { g with awaitsForm := true }

/-- Reads a long option, given without its hyphens, and the value joined to it. -/
def addLong (command : CommandName) (g : Gathered) (name : List Char)
    (value? : Option (List Char)) : Option Gathered :=
  match String.ofList name, value? with
  | "no-cache", none => if command.hasOptions then g.setNoCache else none
  | "exit-status", none => if command.hasOptions then g.setExitStatus else none
  | "output", none => if command.hasOutput then g.awaitForm else none
  | "output", some value => if command.hasOutput then g.setForm (String.ofList value) else none
  | _, _ => none

/-- Reads short options, given without their hyphen. -/
def addShort (command : CommandName) (g : Gathered) : List Char → Option Gathered
  | [] => some g
  | 'e' :: others =>
      if command.hasOptions then g.setExitStatus.bind fun g => addShort command g others
      else none
  | ['o'] => if command.hasOutput then g.awaitForm else none
  | 'o' :: '=' :: value => if command.hasOutput then g.setForm (String.ofList value) else none
  | 'o' :: value => if command.hasOutput then g.setForm (String.ofList value) else none
  | _ => none

/-- Reads one argument. -/
def add (command : CommandName) (g : Gathered) (argument : String) : Option Gathered :=
  if g.awaitsForm then g.setForm argument
  else if g.optionsEnded then some (g.addPositional argument)
  else
    match argument.toList with
    | ['-', '-'] => some { g with optionsEnded := true }
    | '-' :: '-' :: long =>
        match long.dropWhile (· != '=') with
        | [] => g.addLong command long none
        | _ :: value => g.addLong command (long.takeWhile (· != '=')) (some value)
    | '-' :: c :: others => g.addShort command (c :: others)
    | _ => some (g.addPositional argument)

/-- The source for the positional arguments after the expression.  A path is not empty. -/
def sourceOf? : List String → Option Source
  | [] => some .standardInput
  | [path] => if path.isEmpty then none else some (.file path)
  | _ => none

/-- The command that all arguments together make. -/
def command? (name : CommandName) (g : Gathered) : Option Command :=
  if g.awaitsForm then none
  else
    match name, g.positionals with
    | .xml, paths => (sourceOf? paths).map Command.xml
    | .query, expression :: paths =>
        (sourceOf? paths).map fun source =>
          .query expression source (g.form?.getD .value) g.options
    | .eval, expression :: paths =>
        (sourceOf? paths).map fun source => .eval expression source g.options
    | _, [] => none

end Gathered

/-- Reads the arguments of the program, unless they are misused. -/
def Request.ofArguments? : List String → Option Request
  | [] => none
  | first :: others =>
      if first == "--version" || ['-', 'V'].isPrefixOf first.toList then some .version
      else do
        let name ← CommandName.ofName? first
        let gathered ← others.foldlM (Gathered.add name) {}
        let command ← gathered.command? name
        return .run command

end CommandLine

end CborPath
