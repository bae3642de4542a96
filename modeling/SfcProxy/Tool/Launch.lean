import SfcProxy.Tool.Machine
import SfcProxy.Tool.Shell.Invocation
import SfcProxy.Tool.Utility.Copy
import SfcProxy.Tool.Utility.Editing
import SfcProxy.Tool.Utility.Everyday
import SfcProxy.Tool.Utility.Lines
import SfcProxy.Tool.Utility.Sorting

/-!
# Launching programs

A command is an executable and its arguments. An executable without a slash is looked for in the
directories of programs; any other is a path. The programs of the system are the shell and the
utilities; files of the file tree are scripts, whose first line names their interpreter.

## Main definitions

* `Tool.LaunchError`: why a command cannot be started
* `Tool.finder`: the programs by name
* `Tool.launch`: the machine on which a command runs
-/

namespace SfcProxy.Tool

/-- Why a command cannot be started. -/
abbrev LaunchError := FileError

/-- The variables that a program gets. -/
abbrev Environment := List (Octets × Octets)

/-- A program: the process that it is with a name, arguments and an environment. -/
abbrev Program := Octets → List Octets → Environment → Process

/-! ## The programs of the system -/

/-- The utilities by name. -/
def utilities : List (String × Utility) :=
  [("[", Utility.bracket), ("basename", Utility.basename), ("cat", Utility.cat),
    ("cp", Utility.cp), ("cut", Utility.cut), ("dirname", Utility.dirname),
    ("echo", Utility.echo), ("expr", Utility.expr), ("false", Utility.constant 1),
    ("fold", Utility.fold), ("grep", Utility.grep), ("head", Utility.head), ("ls", Utility.ls),
    ("mkdir", Utility.mkdir), ("mv", Utility.mv), ("nl", Utility.nl), ("paste", Utility.paste),
    ("printf", Utility.printf), ("pwd", Utility.pwd), ("rev", Utility.rev), ("rm", Utility.rm),
    ("sed", Utility.sed), ("seq", Utility.seq), ("sleep", Utility.sleep), ("sort", Utility.sort),
    ("tac", Utility.tac), ("tail", Utility.tail), ("tee", Utility.tee), ("test", Utility.test),
    ("touch", Utility.touch), ("tr", Utility.tr), ("true", Utility.constant 0),
    ("uniq", Utility.uniq), ("wc", Utility.wc), ("yes", Utility.yes)]

/-- The options of `env`. -/
def envOptions : List Options.Spec :=
  [⟨"i", "ignore-environment", .none⟩, ⟨"u", "unset", .required⟩]

/-- The variables in front of a command, and the command. -/
def envOperands (environment : Environment) : List Octets → Environment × List Octets
  | operand :: rest =>
    let (name, value) := Shell.Builtin.named operand
    match value with
    | some value => envOperands (environment.filter (·.1 ≠ name) ++ [(name, value)]) rest
    | none => (environment, operand :: rest)
  | [] => (environment, [])

/-- Runs a command in a changed environment, or shows the environment. -/
def env (find : Shell.Finder) (name : Octets) (arguments : List Octets)
    (environment : Environment) : Act Nat := do
  let arguments := match arguments with
    | ['-'] :: rest => ['-', 'i'] :: rest
    | arguments => arguments
  match Options.read envOptions true arguments with
  | .error message => Utility.misuse 125 name message
  | .ok reading =>
    let kept := if reading.has "i" then []
      else environment.filter fun (name, _) => !(reading.values "u").contains name
    let (environment, command) := envOperands kept reading.operands
    match command with
    | [] =>
      Utility.emitLast name
        (environment.flatMap fun (name, value) => name ++ '=' :: value ++ ['\n']) 0
    | program :: rest =>
      match find (← Act.ask .files) program rest environment with
      | .ok process => Act.become process
      | .error cause =>
        let status := if cause = .notFound then 127 else 126
        Utility.fail status name
          (Utility.quoted program ++ ": ".toList ++ Utility.causeText cause)

/-- The program of the system with a name, which finds others in turn. -/
def program? (find : Shell.Finder) (name : Octets) : Option Program :=
  match String.ofList name with
  | "sh" | "dash" => some (Shell.Invocation.process find)
  | "env" => some fun name arguments environment => (env find name arguments environment).process
  | text => (utilities.lookup text).map fun utility name arguments _ =>
    (utility name arguments).process

/-- The directories in which the programs of the system stand. -/
def programDirectories : List Location :=
  [[("bin" : Text)], [("usr" : Text), ("bin" : Text)]]

/-- Where programs are looked for if nothing else is said. -/
def standardPath : Octets :=
  "/usr/local/bin:/usr/local/sbin:/usr/local/bin:/usr/sbin:/usr/bin:/sbin:/bin".toList

/-- The environment of the programs that are launched. -/
def standardEnvironment : Environment :=
  [("PATH".toList, standardPath), ("HOME".toList, "/root".toList)]

/-! ## Scripts -/

/-- A blank of the first line of a script. -/
def isBlank (c : Char) : Bool :=
  c == ' ' || c == '\t'

/-- The interpreter that the first line of a script names, and an argument for it. -/
def interpreter? (script : Octets) : Option (Octets × Option Octets) :=
  match script with
  | '#' :: '!' :: rest =>
    let line := (rest.takeWhile (· != '\n')).dropWhile isBlank
    let line := (line.reverse.dropWhile isBlank).reverse
    let name := line.takeWhile (!isBlank ·)
    let argument := (line.drop name.length).dropWhile isBlank
    if name.isEmpty then none else some (name, if argument.isEmpty then none else some argument)
  | _ => none

/-- The process of the program at a path, which is called by a name. An interpreter may be a
script itself, at most `depth` times. -/
def processAt (find : Shell.Finder) (tree : FileTree) : (depth : Nat) → (path name : Octets) →
    List Octets → Environment → Except SystemCause Process
  | 0, _, _, _, _ => .error .notExecutable
  | depth + 1, path, name, arguments, environment =>
    let location := (Path.ofText path.text).resolve tree.cwd |>.parts
    let last := location.getLastD []
    if path.isEmpty then .error .notFound
    else if programDirectories.any (location.isPrefixOf ·) then .error .denied
    else if programDirectories.contains location.dropLast then
      if nameSize last > nameLimit then .error .nameTooLong
      else
        match program? find (Octets.ofText last) with
        | none => .error .notFound
        | some program =>
          if FileTree.demandsDirectory path then .error .notDirectory
          else .ok (program name arguments environment)
    else do
      match ← tree.find path with
      | (_, .file bytes true) =>
        match interpreter? (Octets.ofBytes bytes) with
        | none => .error .notExecutable
        | some (interpreter, argument) =>
          processAt find tree depth interpreter interpreter
            (argument.toList ++ path :: arguments) environment
      | _ => .error .denied

/-! ## Finding programs -/

/-- The greatest number of scripts that interpret each other. -/
def interpreterLimit : Nat := 5

/-- Tries the directories in which a program may stand one after the other. What speaks against
one of them counts only if the others do not help. -/
def searchIn (attempt : Octets → Except SystemCause Process) (fault : SystemCause) :
    List Octets → Except SystemCause Process
  | [] => .error fault
  | path :: rest =>
    match attempt path with
    | .ok process => .ok process
    | .error cause =>
      searchIn attempt (if cause = .notFound || cause = .notDirectory then fault else cause) rest

/-- The programs by name; programs find others in turn, at most `depth` times. -/
def finder : (depth : Nat) → Shell.Finder
  | 0 => fun _ _ _ _ => .error .notFound
  | depth + 1 => fun tree name arguments environment =>
    let attempt (path : Octets) : Except SystemCause Process :=
      processAt (finder depth) tree interpreterLimit path
        name arguments environment
    if name.contains '/' then attempt name
    else
      let path := (environment.lookup "PATH".toList).getD standardPath
      searchIn attempt .notFound ((path.split (· == ':')).map fun directory =>
        if directory.isEmpty then "./".toList ++ name else directory ++ '/' :: name)

/-- How deeply programs call each other at most. -/
def callLimit : Nat := 1000

/-- The machine on which a command runs in a working directory. -/
def launch (files : FileTree) (cwd : Path) (command : List Text) :
    Except LaunchError Machine := do
  -- The system takes the words of the command before it looks for the directory.
  command.forM checkPath
  let location ← FileTree.guard cwd (files.locate cwd)
  if !files.isDirectory location then .error (.system .notDirectory cwd.text)
  else
    let name := command.headD []
    match finder callLimit { files with cwd := location } (Octets.ofText name)
        ((command.drop 1).map Octets.ofText) standardEnvironment with
    | .ok process => .ok (Machine.start process location files)
    | .error cause => .error (.system cause name)

/-- The wording of a failed start. -/
def failedStart (command : List Text) (e : LaunchError) : Text :=
  ("failed to start " : Text) ++ Text.join " " command ++ (": " : Text) ++ e.message

end SfcProxy.Tool
