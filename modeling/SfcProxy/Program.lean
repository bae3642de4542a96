import SfcProxy.Bridge
import SfcProxy.CommandLine.Invocation
import SfcProxy.Formatter

/-!
# The program

What the proxy does with a command line, its standard input and the files around it.

## Main definitions

* `Program.Report`: what a run leaves behind
* `Program.run`: runs a command line
-/

namespace SfcProxy.Program

open CommandLine

/-- Why a run breaks off. -/
inductive Failure where
  /-- The root of the project cannot be resolved. -/
  | root (error : FileError)
  | format (failure : Formatter.Failure)
  | session (failure : Bridge.Failure)
  deriving DecidableEq

/-- The wording of a failure. -/
def Failure.message : Failure → Text
  | root error => error.message
  | format failure => failure.message
  | session failure => failure.message

/-- What a run leaves behind: its exit code or why it broke off, what it printed, and its records
with their threshold. -/
structure Report where
  exit : Except Failure Int
  output : List UInt8
  errors : List UInt8
  files : FileTree
  level : LogLevel
  log : Log

/-! ## Formatting -/

/-- The record of a run that is not told to read its standard input. -/
def inputOnly : LogRecord :=
  ⟨.error, "Formatting is only supported with the --stdin flag"⟩

/-- The outcome of formatting the standard input. -/
def formatInput (settings : Settings) (input : List UInt8) (files : FileTree) :
    Formatter.Outcome :=
  match Utf8.decode input with
  | .error e => ⟨files, [], .error (.undecodable e)⟩
  | .ok source => Formatter.formatWith settings files (Text.ofChars source)

/-- Formats the standard input. -/
def format (settings : Settings) (fromInput : Bool) (input : List UInt8) (files : FileTree)
    (level : LogLevel) : Report :=
  if !fromInput then ⟨.ok 1, [], [], files, level, [inputOnly]⟩
  else
    let outcome := formatInput settings input files
    let report (exit : Except Failure Int) (output : List UInt8) (log : Log) : Report :=
      ⟨exit, output, [], outcome.files, level, outcome.log ++ log⟩
    match outcome.text with
    | .error (.refused refusal) =>
      report (.ok refusal.code) [] [⟨.error, Text.trimEnd refusal.message⟩]
    | .error failure => report (.error (.format failure)) [] []
    | .ok text =>
      match Utf8.encode text with
      | .ok bytes => report (.ok 0) bytes []
      | .error e => report (.error (.format (.unencodable e))) [] []

/-! ## Serving -/

/-- Runs the proxy between the standard streams and the language server. -/
def serve (settings : Settings) (input : List UInt8) (files : FileTree) (level : LogLevel) :
    Report :=
  let report := Bridge.run settings files settings.projectRoot settings.serverCommand
    [⟨input, none⟩] true
  match report.code with
  | .ok code => ⟨.ok code, report.output, report.errors, report.files, level, report.log⟩
  | .error (.notStarted command e) =>
    let failed : LogRecord := ⟨.error, ("PROXY: " : Text) ++ Tool.failedStart command e⟩
    ⟨.ok 1, report.output, report.errors, report.files, level, report.log ++ [failed]⟩
  | .error failure =>
    ⟨.error (.session failure), report.output, report.errors, report.files, level, report.log⟩

/-! ## Running -/

/-- The bytes of a text; a surrogate has none. -/
def bytesOf (t : Text) : List UInt8 :=
  t.flatMap fun
    | .scalar c => Utf8.encodeChar c
    | .surrogate _ => []

/-- Runs a command line on its standard input and the files around it. -/
def run (arguments : List Text) (input : List UInt8) (files : FileTree) : Report :=
  match Invocation.read arguments with
  | .error stop =>
    let (code, output, errors) := stop.report
    ⟨.ok code, bytesOf output, bytesOf errors, files, .warning, []⟩
  | .ok invocation =>
    match invocation.checkRoot with
    | .error e => ⟨.error (.root e), [], [], files, invocation.level, []⟩
    | .ok () =>
      let settings := invocation.settings files.cwd
      match invocation.task with
      | .format fromInput => format settings fromInput input files invocation.level
      | .serve => serve settings input files invocation.level

end SfcProxy.Program
