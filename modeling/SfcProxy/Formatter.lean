import SfcProxy.Component
import SfcProxy.Log
import SfcProxy.Settings
import SfcProxy.Text.Blank
import SfcProxy.Tool.Launch
import SfcProxy.Tool.Supervision

/-!
# Formatting

The block of a component file is handed to an external formatter, and what it prints takes the
block's place. The rest of the file stays as it is.

## Main definitions

* `Formatter.Failure`: why a text cannot be formatted
* `Formatter.splice`: puts formatted code into a source
* `Formatter.formatBlock`: runs a formatter on code
* `Formatter.formatComponent`: formats the block of a component file
* `Formatter.formatInput`: formats a component file given as bytes
-/

namespace SfcProxy.Formatter

/-! ## Failures -/

/-- Why there is no formatted text. -/
inductive Refusal where
  /-- The file has no block in the wanted language. -/
  | noBlock
  | notStarted (command : List Text) (error : FileError)
  /-- The formatter ended with a failure and wrote to its errors. -/
  | failed (errors : List UInt8) (code : Int)
  deriving DecidableEq

/-- The wording of a refusal. -/
def Refusal.message : Refusal → Text
  | noBlock => "Unable to parse Vue SFC"
  | notStarted command error => Tool.failedStart command error
  | failed errors _ => Text.ofChars (Utf8.decodeLossy errors)

/-- The code of a refusal. -/
def Refusal.code : Refusal → Int
  | noBlock | notStarted _ _ => 1
  | failed _ code => code

/-- Why a text cannot be formatted: it is refused, or a text cannot leave or enter the program. -/
inductive Failure where
  | refused (refusal : Refusal)
  /-- There is no command to run. -/
  | noCommand
  /-- The command cannot be given to the system. -/
  | command (error : FileError)
  | unencodable (error : Utf8.EncodeError)
  | undecodable (error : Utf8.DecodeError)
  deriving DecidableEq

/-- The wording of a failure. -/
def Failure.message : Failure → Text
  | refused refusal => refusal.message
  | noCommand => "list index out of range"
  | command error => error.message
  | unencodable error => error.message
  | undecodable error => error.message

/-! ## Formatters -/

/-- What a formatter has done: the files after it ran, its records, and the text or why there is
none. -/
structure Outcome where
  files : FileTree
  log : Log
  text : Except Failure Text

/-- A formatter of code. -/
abbrev CodeFormatter := FileTree → Text → Outcome

/-- The record of a formatter that is run. -/
def running (command : List Text) : LogRecord :=
  ⟨.debug, ("Running formatter: [" : Text) ++ Text.join ", " (command.map Text.quoted)
    ++ ("]" : Text)⟩

/-- The text of a formatter that has ended. -/
def result (machine : Tool.Machine) : Except Failure Text :=
  if machine.code ≠ 0 then .error (.refused (.failed machine.errors machine.code))
  else
    match Utf8.decode machine.output with
    | .ok cs => .ok (Text.ofChars cs)
    | .error e => .error (.undecodable e)

/-- Runs a formatter on code in the current directory. -/
def formatBlock (command : List Text) : CodeFormatter := fun files code =>
  let log := [running command]
  match Utf8.encode code with
  | .error e => ⟨files, log, .error (.unencodable e)⟩
  | .ok input =>
    if command.isEmpty then ⟨files, log, .error .noCommand⟩
    else
      match Tool.launch files ⟨.here, []⟩ command with
      | .error e =>
        ⟨files, log, .error (if e.isSystem then .refused (.notStarted command e) else .command e)⟩
      | .ok machine =>
        let finished := machine.finishOn input
        ⟨finished.files, log, result finished⟩

/-! ## Component files -/

/-- Puts formatted code on a line of its own in place of the first occurrence of the old code. -/
def splice (source code formatted : Text) : Text :=
  source.replaceFirst code (.scalar '\n' :: formatted)

/-- The record of the faults of a component file. -/
def faultLog (extraction : Extraction) : Log :=
  if extraction.faults.isEmpty then []
  else [⟨.warning, ("Errors parsing Vue SFC: " : Text) ++ extraction.summary⟩]

/-- Formats the block of a component file with a formatter of code. -/
def formatComponent (format : CodeFormatter) (lang : Text) (files : FileTree) (source : Text) :
    Outcome :=
  match Component.extractText lang source with
  | .error e => ⟨files, [], .error (.unencodable e)⟩
  | .ok extraction =>
    match extraction.block with
    | none => ⟨files, faultLog extraction, .error (.refused .noBlock)⟩
    | some block =>
      -- The formatter gets the content with the line break behind the start tag.
      let code := Text.ofChars block.content
      let outcome := format files code
      { outcome with
        log := faultLog extraction ++ outcome.log
        text := outcome.text.map (splice source code) }

/-- Formats the block of a component file as the settings say. -/
def formatWith (settings : Settings) (files : FileTree) (source : Text) : Outcome :=
  formatComponent (formatBlock settings.formatCommand) settings.blockLang files source

end SfcProxy.Formatter
