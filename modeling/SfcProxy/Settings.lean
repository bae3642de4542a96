import SfcProxy.Json.Literal
import SfcProxy.Log
import SfcProxy.Path

/-!
# Settings

Where components live, where generated files go, and which tool is run. The editor may override
the two directories when it initializes the session.

## Main definitions

* `Settings`: the settings of a session
* `Settings.sourcePath`, `Settings.generatedPath`: the two directories
* `Settings.applyOptions`: the editor's overrides
-/

namespace SfcProxy

/-- The settings of a session. -/
structure Settings where
  projectRoot : Path
  sourceDir : Text := "src"
  generatedDir : Text := "vleam_generated"
  toolchain : Text := "gleam"
  blockLang : Text := "gleam"
  maxTracked : Int := 4096
  deriving DecidableEq

namespace Settings

/-- The directory of the components. -/
def sourcePath (s : Settings) : Path :=
  s.projectRoot.join s.sourceDir

/-- The directory of the generated files. -/
def generatedPath (s : Settings) : Path :=
  s.sourcePath.join s.generatedDir

/-- The command that runs the language server. -/
def serverCommand (s : Settings) : List Text :=
  [s.toolchain, ("lsp" : Text)]

/-- The command that runs the formatter. -/
def formatCommand (s : Settings) : List Text :=
  [s.toolchain, ("format" : Text), ("--stdin" : Text)]

/-! ## Overrides -/

/-- A directory that the editor may override. -/
inductive Directory where
  | source
  | generated
  deriving DecidableEq

/-- The name of an override. -/
def Directory.key : Directory → Text
  | source => "sourceDir"
  | generated => "generatedDir"

/-- The current name of a directory. -/
def directory (s : Settings) : Directory → Text
  | .source => s.sourceDir
  | .generated => s.generatedDir

/-- Names a directory. -/
def setDirectory (s : Settings) (d : Directory) (name : Text) : Settings :=
  match d with
  | .source => { s with sourceDir := name }
  | .generated => { s with generatedDir := name }

/-- The record of an override that is no text. -/
def refusal (d : Directory) (value : Json) : LogRecord :=
  ⟨.warning, ("Ignoring initializationOptions.vleam." : Text) ++ d.key
    ++ (": expected a string, got " : Text) ++ value.literal⟩

/-- Applies one override. An empty text changes nothing, and what is no text is refused. -/
def applyOption (options : Members) (s : Settings) (d : Directory) : Settings × Log :=
  match Json.get? d.key options with
  | none | some .null => (s, [])
  | some (.str name) => (if name.isEmpty then s else s.setDirectory d name, [])
  | some value => (s, [refusal d value])

/-- The record of changed settings. -/
def updated (s : Settings) : LogRecord :=
  ⟨.info, ("PROXY: settings updated from client: source=" : Text) ++ s.sourcePath.text
    ++ (", generated=" : Text) ++ s.generatedPath.text⟩

/-- Applies the editor's overrides, which are an object with a member for each directory. -/
def applyOptions (s : Settings) (options : Json) : Settings × Log :=
  match options with
  | .obj members =>
    let (s₁, log₁) := applyOption members s .source
    let (s₂, log₂) := applyOption members s₁ .generated
    (s₂, log₁ ++ log₂ ++ if s₂ = s then [] else [s₂.updated])
  | _ => (s, [])

end Settings

end SfcProxy
