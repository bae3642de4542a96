import SfcProxy.Program

/-!
# The command line

Reads the arguments and the standard input, runs the program on them, and prints what it leaves
behind. The run starts in an empty working directory; what it does with files and tools stays
inside the run.
-/

namespace SfcProxy.Shell

/-- All that a stream brings, behind what has been read already. -/
partial def readAll (stream : IO.FS.Stream) (already : ByteArray) : IO ByteArray := do
  let chunk ← stream.read 65536
  if chunk.isEmpty then return already
  readAll stream (already ++ chunk)

/-- The standard input of a command line, which only some of them read. -/
def inputFor (arguments : List Text) : IO (List UInt8) :=
  match CommandLine.Invocation.read arguments with
  | .error _ | .ok ⟨_, _, _, _, .format false⟩ => return []
  | .ok _ => return (← readAll (← IO.getStdin) .empty).toList

/-- Prints bytes to a stream. -/
def printBytes (stream : IO.FS.Stream) (bytes : List UInt8) : IO Unit := do
  stream.write ⟨bytes.toArray⟩
  stream.flush

/-- The line of a log record. -/
def recordLine (r : LogRecord) : Text :=
  Text.ofString r.level.name ++ (" - " : Text) ++ r.message ++ ("\n" : Text)

/-- Prints a report and gives its exit code; a run that broke off tells why and has the code 1. -/
def printReport (report : Program.Report) : IO UInt32 := do
  let errors ← IO.getStderr
  printBytes (← IO.getStdout) report.output
  printBytes errors report.errors
  printBytes errors (Program.bytesOf ((report.log.above report.level).flatMap recordLine))
  match report.exit with
  | .ok code => return (code % 256).toNat.toUInt32
  | .error failure =>
    printBytes errors (Program.bytesOf (failure.message ++ ("\n" : Text)))
    return 1

end SfcProxy.Shell

open SfcProxy in
/-- Runs the program on its arguments. -/
def main (arguments : List String) : IO UInt32 := do
  let arguments := arguments.map Text.ofString
  let cwd := Path.ofText (Text.ofString ((← IO.getEnv "PWD").getD "/"))
  let report := Program.run arguments (← Shell.inputFor arguments) (FileTree.empty cwd.parts)
  Shell.printReport report
