import BlockCalc.CommandLine

/-!
# The command

Carries out what the command line asks for. At the prompt, each line is read and answered before
the next invitation is written.
-/
namespace BlockCalc.CommandLine

/-- Reads a file. -/
def readFile (path : String) : IO (Except FileError ByteArray) := do
  try
    return .ok (← IO.FS.readBinFile path)
  catch
    | .noFileOrDirectory .. => return .error .missing
    | .inappropriateType .. => return .error .directory
    | .permissionDenied .. => return .error (.system "Permission denied" 13)
    | _ => return .error (.system "Input/output error" 5)

/-- Reads the bytes of a line with the newline that ends it; there is no line at the end of the
input. -/
def readLine (input : IO.FS.Stream) : IO (Option (List UInt8)) := do
  let mut line : Array UInt8 := #[]
  repeat
    let bytes ← input.read 1
    match bytes.data[0]? with
    | none => break
    | some byte =>
      line := line.push byte
      if byte = 10 then break
  return if line.isEmpty then none else some line.toList

/-- Writes an outcome to the output streams. -/
def emit (outcome : Outcome) : IO UInt32 := do
  let out ← IO.getStdout
  out.write outcome.stdout
  out.flush
  (← IO.getStderr).putStr outcome.stderr
  return outcome.code

/-- Holds a conversation at the prompt: the turns of `Prompt.converse`, each written out before the
next line is read. -/
def converse : IO UInt32 := do
  let input ← IO.getStdin
  let out ← IO.getStdout
  repeat
    out.putStr Prompt.invitation
    out.flush
    match Prompt.respond (.empty none) (← readLine input) with
    | .error (e, sink) => return ← emit (.failure sink.written e.message)
    | .ok (sink, goesOn) =>
      out.write sink.written
      unless goesOn do return 0
  return 0

end BlockCalc.CommandLine

/-- Runs the command and gives its exit code. -/
def main (args : List String) : IO UInt32 := do
  match BlockCalc.CommandLine.request? args with
  | some .prompt => BlockCalc.CommandLine.converse
  | some (.file path) =>
    let contents ← BlockCalc.CommandLine.readFile path
    BlockCalc.CommandLine.emit (.ofFile path contents)
  | _ => BlockCalc.CommandLine.emit (BlockCalc.CommandLine.run args [] fun _ => .error .missing)
