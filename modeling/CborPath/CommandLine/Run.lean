import CborPath.CommandLine.Arguments
import CborPath.Engine.Basic
import CborPath.Tree.Xml

/-!
# Running commands

A command loads its document before it looks at its expression.  It ends with code 0, or with code 1
if something fails or if the exit status was asked to tell that nothing was found.  Misused
arguments give code 2.
-/

namespace CborPath

namespace CommandLine

/-- Why a document could not be read. -/
inductive ReadFailure
  | notFound
  | isDirectory
  | other (message : String)
  deriving DecidableEq, Repr

/-- The wording of a failed reading. -/
def ReadFailure.message : ReadFailure → String
  | notFound => "No such file or directory (os error 2)"
  | isDirectory => "Is a directory (os error 21)"
  | other message => message

/-- How a run of the program ends: its code, what it prints, and its own error message. -/
structure Report where
  code : Nat
  output : String := ""
  error? : Option String := none
  deriving DecidableEq, Repr

namespace Report

/-- The report of a failure with its cause. -/
def failure (message cause : String) : Report :=
  { code := 1, error? := some ("Error: " ++ message ++ "\n\nCaused by:\n    " ++ cause ++ "\n") }

/-- The report of an error about an expression. -/
def ofError (e : Error) : Report :=
  match e.cause? with
  | some cause => failure e.message cause
  | none => { code := 1, error? := some ("Error: " ++ e.message ++ "\n") }

/-- The report of misused arguments. -/
def misuse : Report := { code := 2 }

/-- The report of an output, where `found` tells whether there was anything. -/
def found (options : Options) (found : Bool) (output : String) : Report :=
  { code := if options.exitStatus && !found then 1 else 0, output := output }

end Report

/-- A line of output. -/
def line (text : String) : String :=
  text ++ "\n"

/-- What is printed for a node. -/
def OutputForm.render (tree : Tree) (node : NodeId) : OutputForm → String
  | value => tree.innerText node
  | xml => tree.outputXml node
  | name => (tree.node node).name

/-- The engine for some options. -/
def Options.engine (options : Options) : Engine :=
  { configuration := { cacheExpressions := !options.noCache } }

/-- Runs a command on its document. -/
def Command.runOn (tree : Tree) : Command → Report
  | query expression _ form options =>
      match (options.engine.queryAll tree Tree.root expression).result with
      | .error e => Report.ofError e
      | .ok nodes =>
          Report.found options (!nodes.isEmpty)
            (String.join (nodes.map fun node => line (form.render tree node)))
  | xml _ => { code := 0, output := line (tree.outputXml Tree.root) }
  | eval expression _ options =>
      match (options.engine.evaluate tree Tree.root expression).result with
      | .error e => Report.ofError e
      | .ok answer => Report.found options answer.toBoolean (line (answer.display tree))

/-- Runs a command, given what reading its source gives. -/
def Command.run (command : Command) (bytes : Except ReadFailure (List UInt8)) : Report :=
  match bytes with
  | .error e => Report.failure ("failed to read " ++ command.source.name) e.message
  | .ok bytes =>
      match load (Input.ofBytes bytes) with
      | .error e =>
          Report.failure ("failed to parse CBOR from " ++ command.source.name) e.message
      | .ok tree => command.runOn tree

/-- What the program prints when asked for its version. -/
def versionText : String := "cborquery 0.1.0"

/-- Runs the program, given its arguments and how sources are read. -/
def run (arguments : List String) (read : Source → Except ReadFailure (List UInt8)) : Report :=
  match Request.ofArguments? arguments with
  | none => Report.misuse
  | some .version => { code := 0, output := line versionText }
  | some (.run command) => command.run (read command.source)

end CommandLine

end CborPath
