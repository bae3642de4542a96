import SfcProxy.CommandLine.Grammar
import SfcProxy.FileTree
import SfcProxy.Log
import SfcProxy.Settings

/-!
# Invocations

The command line of the proxy: general flags, then one of two commands. `lsp` runs the language
server proxy, `format` formats a component file.

## Main definitions

* `Invocation`: what the command line asks for
* `Invocation.read`: the invocation of a command line
* `Stop.report`: what is printed when nothing is carried out
-/

namespace SfcProxy.CommandLine

/-- The version of the program. -/
def version : Text := "0.3.0"

/-! ## Grammars -/

/-- The flag that asks for help. -/
def helpFlag : Flag := ⟨["-h", "--help"], .help⟩

/-- The flag for the threshold of log records. -/
def levelFlag : Flag := ⟨["--log-level"], .value (LogLevel.all.map fun l => Text.ofString l.name)⟩

/-- The flag for the executable of the toolchain. -/
def toolchainFlag : Flag := ⟨["--toolchain"], .value []⟩

/-- The flag for the root of the project. -/
def rootFlag : Flag := ⟨["--project-root"], .value []⟩

/-- The flag for the directory of the components. -/
def sourceFlag : Flag := ⟨["--source-dir"], .value []⟩

/-- The flag that makes the formatter read its standard input. -/
def stdinFlag : Flag := ⟨["--stdin"], .switch⟩

/-- The general flags. -/
def general : Grammar where
  program := "vleam"
  flags := [helpFlag, levelFlag, ⟨["--version"], .version⟩, toolchainFlag, rootFlag, sourceFlag]
  usage :=
    ["usage: vleam [-h] [--log-level \x7bDEBUG,INFO,WARNING,ERROR\x7d] [--version]",
     "             [--toolchain TOOLCHAIN] [--project-root PROJECT_ROOT]",
     "             [--source-dir SOURCE_DIR]",
     "             \x7blsp,format\x7d ..."]
  description :=
    ["",
     "Gleam tooling for <script lang=\"gleam\"> blocks in Vue SFCs",
     "",
     "positional arguments:",
     "  \x7blsp,format\x7d",
     "    lsp                 Run the language server proxy over stdio",
     "    format              Format the gleam portion of a Vue SFC. Currently only",
     "                        supports stdin",
     "",
     "options:",
     "  -h, --help            show this help message and exit",
     "  --log-level \x7bDEBUG,INFO,WARNING,ERROR\x7d",
     "                        Set the logging level (default: WARNING)",
     "  --version             show program's version number and exit",
     "  --toolchain TOOLCHAIN",
     "                        Gleam executable (default: gleam)",
     "  --project-root PROJECT_ROOT",
     "                        Project root (default: current directory)",
     "  --source-dir SOURCE_DIR",
     "                        Source directory relative to the project root",
     "                        (default: src)"]

/-- The flags of the command `lsp`. -/
def lspGrammar : Grammar where
  program := "vleam lsp"
  flags := [helpFlag]
  usage := ["usage: vleam lsp [-h]"]
  description :=
    ["",
     "options:",
     "  -h, --help  show this help message and exit"]

/-- The flags of the command `format`. -/
def formatGrammar : Grammar where
  program := "vleam format"
  flags := [helpFlag, stdinFlag]
  usage := ["usage: vleam format [-h] [--stdin]"]
  description :=
    ["",
     "options:",
     "  -h, --help  show this help message and exit",
     "  --stdin     Accept input on stdin"]

/-! ## Commands -/

/-- The commands. -/
inductive CommandName where
  | lsp
  | format
  deriving DecidableEq

namespace CommandName

/-- The name of a command. -/
def text : CommandName → Text
  | lsp => "lsp"
  | format => "format"

/-- All commands. -/
def all : List CommandName :=
  [lsp, format]

/-- The flags of a command. -/
def grammar : CommandName → Grammar
  | lsp => lspGrammar
  | format => formatGrammar

end CommandName

/-- What is carried out. -/
inductive Task where
  | serve
  | format (fromInput : Bool)
  deriving DecidableEq

/-- The task of a command with the flags that are given. -/
def CommandName.task (given : List (Flag × Text)) : CommandName → Task
  | lsp => .serve
  | format => .format (given.any (·.1 = stdinFlag))

/-- What a command line asks for. -/
structure Invocation where
  level : LogLevel
  toolchain : Option Text
  projectRoot : Option Text
  sourceDir : Option Text
  task : Task
  deriving DecidableEq

namespace Invocation

/-- The last value of a flag. -/
def lastValue? (given : List (Flag × Text)) (flag : Flag) : Option Text :=
  (given.reverse.find? (·.1 = flag)).map (·.2)

/-- The invocation with the given flags and a task. -/
def ofGiven (given : List (Flag × Text)) (task : Task) : Invocation where
  level := ((lastValue? given levelFlag).bind LogLevel.ofName?).getD .warning
  toolchain := lastValue? given toolchainFlag
  projectRoot := lastValue? given rootFlag
  sourceDir := lastValue? given sourceFlag
  task

/-- The title of the command in messages. -/
def commandTitle : Text := "command"

/-- The invocation of a command line. -/
def read (arguments : List Text) : Except Stop Invocation := do
  let reading ← general.read true arguments
  match reading.command with
  | [] => .error (.misuse general (.missing commandTitle))
  | name :: arguments =>
    match CommandName.all.find? (·.text = name) with
    | none =>
      .error (.misuse general (.invalidChoice commandTitle name (CommandName.all.map (·.text))))
    | some command =>
      let inner ← command.grammar.read false arguments
      -- What neither grammar knows is a fault of the whole command line.
      match reading.unknown ++ inner.unknown with
      | [] => return ofGiven reading.given (command.task inner.given)
      | unknown => .error (.misuse general (.unrecognized unknown))

/-- The root of the project that is given, if any, can be resolved. -/
def checkRoot (i : Invocation) : Except FileError Unit :=
  match i.projectRoot with
  | none => .ok ()
  | some root => checkResolvable (Path.ofText root)

/-- The settings of an invocation in a working directory. -/
def settings (i : Invocation) (cwd : List Text) : Settings :=
  let base : Settings := { projectRoot := ⟨.root, cwd⟩ }
  { base with
    projectRoot := (i.projectRoot.map fun t => (Path.ofText t).resolve cwd).getD base.projectRoot
    toolchain := i.toolchain.getD base.toolchain
    sourceDir := i.sourceDir.getD base.sourceDir }

end Invocation

/-! ## Stops -/

/-- Lines as one text. -/
def ofLines (lines : List Text) : Text :=
  lines.flatMap (· ++ ("\n" : Text))

/-- What is printed instead of carrying a command line out: the exit code, and the texts on the
standard output and the standard error. -/
def Stop.report : Stop → Int × Text × Text
  | help g => (0, ofLines (g.usage ++ g.description), [])
  | version => (0, ofLines [("vleam " : Text) ++ CommandLine.version], [])
  | misuse g m => (2, [], ofLines (g.usage ++ [g.program ++ (": error: " : Text) ++ m.message]))

end SfcProxy.CommandLine
