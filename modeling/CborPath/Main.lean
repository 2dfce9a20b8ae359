import CborPath.CommandLine.Run

/-!
# The program

Reads the arguments, the document and nothing else, and prints the report of the run.
-/

namespace CborPath

namespace CommandLine

/-- Reads a stream to its end. -/
partial def readAll (stream : IO.FS.Stream) (bytes : ByteArray) : IO ByteArray := do
  let chunk ← stream.read 65536
  if chunk.isEmpty then return bytes else readAll stream (bytes ++ chunk)

/-- Reads a source. -/
def readSource (source : Source) : IO (Except ReadFailure (List UInt8)) := do
  try
    let bytes ←
      match source with
      | .standardInput => readAll (← IO.getStdin) ByteArray.empty
      | .file path => IO.FS.readBinFile path
    return .ok bytes.toList
  catch
    | .noFileOrDirectory .. => return .error .notFound
    | e => return .error (.other (toString e))

/-- Prints a report and gives its code. -/
def printReport (report : Report) : IO UInt32 := do
  IO.print report.output
  match report.error? with
  | some message => IO.eprint message
  | none => if report.code = 2 then IO.eprintln "usage: cborquery <query|xml|eval> ..."
  return report.code.toUInt32

end CommandLine

end CborPath

open CborPath CommandLine in
/-- Runs the program. -/
def main (arguments : List String) : IO UInt32 := do
  match Request.ofArguments? arguments with
  | some (.run command) =>
      let bytes ← readSource command.source
      printReport (run arguments fun _ => bytes)
  | _ => printReport (run arguments fun _ => .error .notFound)
