import SfcProxy.Tool.Shell.Expansion
import SfcProxy.Tool.Utility.Testing

/-!
# Commands of the shell itself

The commands that a shell carries out itself and that need no other commands: they print, test,
read, and change the state of the shell. A fault ends them with a message.

## Main definitions

* `Builtin`: what such a command does
* `Builtin.isSpecial`: commands whose faults end the shell
* `Builtin.find?`: the command with a name
-/

namespace SfcProxy.Tool.Shell

/-- What a command of the shell itself does with its arguments; it gives its status or fails with
a message. -/
abbrev Builtin := List Octets → Expansion.Step Nat

namespace Builtin

open Expansion (Step)

/-! ## Arguments and output -/

/-- The options in front of arguments, each a letter with its value, and the arguments behind
them. Of the letters some take a value. -/
def optionsFrom (letters valued : List Char) : (budget : Nat) → List Octets →
    Except Octets (List (Char × Octets) × List Octets)
  | budget + 1, ('-' :: c :: more) :: rest => do
    if c = '-' && more.isEmpty then return ([], rest)
    if valued.contains c then
      match more, rest with
      | [], value :: rest =>
        let (found, rest) ← optionsFrom letters valued budget rest
        return ((c, value) :: found, rest)
      | [], [] => throw ("No arg for -".toList ++ c :: " option".toList)
      | value, rest =>
        let (found, rest) ← optionsFrom letters valued budget rest
        return ((c, value) :: found, rest)
    if !letters.contains c then throw ("Illegal option -".toList ++ [c])
    let left := if more.isEmpty then rest else ('-' :: more) :: rest
    let (found, rest) ← optionsFrom letters valued budget left
    return ((c, []) :: found, rest)
  | _, arguments => return ([], arguments)

/-- The options in front of arguments, and the arguments behind them. -/
def options (letters valued : String) (arguments : List Octets) :
    Step (List (Char × Octets) × List Octets) := do
  let budget := arguments.foldl (fun length argument => length + argument.length + 1) 0
  match optionsFrom letters.toList valued.toList budget arguments with
  | .ok found => return found
  | .error message => throw message

/-- The number that an argument is. -/
def number (argument : Octets) : Step Nat := do
  match argument.toNat? with
  | some n => if n ≤ 2147483647 then return n else throw ("Illegal number: ".toList ++ argument)
  | none => throw ("Illegal number: ".toList ++ argument)

/-- Writes octets to the output and gives a status, or 1 if they cannot be written. -/
def emit (text : Octets) (status : Nat) : Step Nat := do
  if text.isEmpty then return status
  match ← Work.ask (.write Act.output text.bytes) with
  | .ok () => return status
  | .error _ =>
    let running := (← get).running.getD []
    Work.complain (running ++ ": I/O error".toList)
    return status ||| 1

/-- Complains about several things. -/
def complainAll : List Octets → Step Unit
  | [] => return ()
  | message :: rest => do
    Work.complain message
    complainAll rest

/-- Octets in single quotes. -/
def singleQuoted (s : Octets) : Octets :=
  let pieces := s.split (· == '\'')
  ['\''] ++ List.intercalate "'\"'\"'".toList pieces ++ ['\'']

/-! ## Printing and testing -/

/-- Ends with a status. -/
def constant (status : Nat) : Builtin := fun _ => return status

/-- Prints its arguments. -/
def echo : Builtin := fun arguments =>
  match arguments with
  | ['-', 'n'] :: rest => emit (Printing.echo false rest) 0
  | _ => emit (Printing.echo true arguments) 0

/-- How formats are read and complained about. -/
def dialect : Printing.Dialect where
  knowsMore := false
  fractionDigits := 53
  wording
    | .notNumeric argument => argument ++ ": expected numeric value".toList
    | .notConverted argument => argument ++ ": not completely converted".toList
    | .outOfRange argument => argument ++ ": Numerical result out of range".toList
    | .badDirective directive => directive ++ ": invalid directive".toList
    | .missingFormat => "missing format character".toList
    | .excess argument => argument

/-- A complaint that ends printing. -/
def isFinal : Printing.Complaint → Bool
  | .badDirective _ | .missingFormat => true
  | _ => false

/-- Prints a format. -/
def printf : Builtin := fun arguments => do
  let (_, arguments) ← options "" "" arguments
  match arguments with
  | [] => throw "usage: printf format [arg ...]".toList
  | format :: rest =>
    let printed := Printing.print dialect format rest
    let complaints := printed.complaints.filter fun
      | .excess _ => false
      | _ => true
    complainAll (complaints.map dialect.wording)
    emit printed.text
      (if complaints.any isFinal then 2 else if complaints.isEmpty then 0 else 1)

/-- The wording of a fault of a test. -/
def testFault : Testing.Fault → Octets
  | .illegalNumber word => "Illegal number: ".toList ++ word
  | .unexpected word => word ++ ": unexpected operator".toList
  | .argumentExpected operator => operator ++ ": argument expected".toList
  | .unclosed => "closing paren expected".toList

/-- Tests an expression. -/
def test : Builtin := fun arguments => do
  match Testing.evaluate (← Work.ask .files) arguments with
  | .ok holds => return if holds then 0 else 1
  | .error fault => throw (testFault fault)

/-- Tests an expression in brackets. -/
def bracket : Builtin := fun arguments => do
  if arguments.getLast? = some [']'] then test arguments.dropLast else throw "missing ]".toList

/-! ## Reading -/

/-- A character that was read, and whether it is quoted. -/
abbrev Heard := Char × Bool

/-- Reads a line byte by byte; `heard` holds what was read, last first. Gives whether the line has
an end. With `raw` a backslash stands for itself. -/
def readLine (raw : Bool) (heard : List Heard) : (budget : Nat) → Step (List Heard × Bool)
  | 0 => return (heard.reverse, false)
  | budget + 1 => do
    match ← Work.ask (.read Act.input 1) with
    | .error _ | .ok [] => return (heard.reverse, false)
    | .ok (b :: _) =>
      let c := Char.ofNat b.toNat
      if c = '\x00' then readLine raw heard budget
      else if c = '\n' then return (heard.reverse, true)
      else if c = '\\' && !raw then
        match ← Work.ask (.read Act.input 1) with
        | .error _ | .ok [] => return (heard.reverse, false)
        | .ok (b :: _) =>
          let c := Char.ofNat b.toNat
          if c = '\n' then readLine raw heard budget else readLine raw ((c, true) :: heard) budget
      else readLine raw ((c, false) :: heard) budget

/-- What was read parted into so many pieces; the last one holds all the rest. -/
def heardPieces (separators : Octets) : (count : Nat) → List Heard → List Octets
  | 0, _ => []
  | count + 1, heard =>
    let parts (h : Heard) : Bool := !h.2 && separators.contains h.1
    let isBlank (h : Heard) : Bool := parts h && " \t\n".toList.contains h.1
    let heard := heard.dropWhile isBlank
    if heard.isEmpty then []
    else
      let piece := heard.takeWhile fun h => !parts h
      let rest := (heard.drop piece.length).dropWhile isBlank
      let rest := match rest with
        | h :: more => if parts h then more.dropWhile isBlank else rest
        | [] => []
      if rest.isEmpty then [piece.map (·.1)]
      else if count = 0 then [((heard.reverse.dropWhile isBlank).reverse).map (·.1)]
      else piece.map (·.1) :: heardPieces separators count rest

/-- Sets variables to pieces; those without a piece become empty. -/
def assignAll : List Octets → List Octets → Step Unit
  | [], _ => return ()
  | name :: names, pieces => do
    if !isName name then throw (name ++ ": bad variable name".toList)
    Expansion.assign name (pieces.headD [])
    assignAll names pieces.tail

/-- Reads a line into variables. -/
def read : Builtin := fun arguments => do
  let (found, names) ← options "r" "p" arguments
  if names.isEmpty then throw "arg count".toList
  let (heard, ended) ← readLine (found.any (·.1 == 'r')) [] Act.budget
  assignAll names (heardPieces (← get).separators names.length heard)
  return if ended then 0 else 1

/-! ## Directories -/

/-- The directory of the shell. -/
def directory : Step Octets := do
  let tree ← Work.ask .files
  return Octets.ofText (Path.text ⟨.root, tree.cwd⟩)

/-- Goes to a directory. -/
def cd : Builtin := fun arguments => do
  let (_, arguments) ← options "LP" "" arguments
  let s ← get
  let target := match arguments with
    | [] => (s.value? "HOME".toList).getD []
    | ['-'] :: _ => (s.value? "OLDPWD".toList).getD []
    | target :: _ => target
  let old ← directory
  match ← Work.ask (.enter (if target.isEmpty then ['.'] else target)) with
  | .error _ => throw ("can't cd to ".toList ++ target)
  | .ok () =>
    let new ← directory
    modify fun s => (s.set "OLDPWD".toList old).set "PWD".toList new
    if arguments.head? = some ['-'] then emit (new ++ ['\n']) 0 else return 0

/-- Prints the directory. -/
def pwd : Builtin := fun arguments => do
  let _ ← options "LP" "" arguments
  emit ((← directory) ++ ['\n']) 0

/-! ## Variables -/

/-- The variables of some kind as commands that set them, in the order of their names. -/
def listing (s : State) (command : String) (test : Variable → Bool) : Octets :=
  let chosen := (s.vars.filter fun (_, v) => test v).mergeSort fun a b =>
    !Testing.before b.1 a.1
  chosen.flatMap fun (name, v) =>
    command.toList ++ name ++ (match v.value with
      | some value => '=' :: singleQuoted value
      | none => []) ++ ['\n']

/-- A name and the value behind its equals sign, if it has one. -/
def named (argument : Octets) : Octets × Option Octets :=
  let name := argument.takeWhile (· != '=')
  (name, if name.length < argument.length then some (argument.drop (name.length + 1)) else none)

/-- Sets and changes variables. -/
def declareAll (change : Variable → Variable) : List Octets → Step Unit
  | [] => return ()
  | argument :: rest => do
    let (name, value) := named argument
    if !isName name then throw (name ++ ": bad variable name".toList)
    if let some value := value then Expansion.assign name value
    modify fun s =>
      s.putVariable name (change ((s.named? name).getD { value := none }))
    declareAll change rest

/-- Sets and changes variables, or lists those that are changed. -/
def declare (command : String) (test : Variable → Bool) (change : Variable → Variable) : Builtin :=
  fun arguments => do
    let (found, arguments) ← options "p" "" arguments
    if arguments.isEmpty || !found.isEmpty then emit (listing (← get) command test) 0
    else do
      declareAll change arguments
      return 0

/-- Lets programs see variables. -/
def exporting : Builtin :=
  declare "export " (·.exported) fun v => { v with exported := true }

/-- Fixes variables. -/
def fixing : Builtin :=
  declare "readonly " (·.fixed) fun v => { v with fixed := true }

/-- Removes variables or functions. -/
def removeAll (functions : Bool) : List Octets → Step Unit
  | [] => return ()
  | name :: rest => do
    if functions then
      modify fun s => { s with functions := s.functions.filter (·.1 ≠ name) }
    else do
      if !isName name then throw (name ++ ": bad variable name".toList)
      if (← get).isFixed name then throw (name ++ ": is read only".toList)
      modify (·.removeVariable name)
    removeAll functions rest

/-- Removes variables or functions. -/
def unset : Builtin := fun arguments => do
  let (found, names) ← options "vf" "" arguments
  removeAll (found.getLast?.any (·.1 == 'f')) names
  return 0

/-- Hides variables until the function ends. -/
def hideAll : List Octets → Step Unit
  | [] => return ()
  | argument :: rest => do
    let (name, value) := named argument
    if !isName name then throw (name ++ ": bad variable name".toList)
    modify fun s =>
      let old := s.named? name
      { s with hidden := s.hidden.map fun hidden =>
          if hidden.any (·.1 == name) then hidden else (name, old) :: hidden }
    if let some value := value then Expansion.assign name value
    hideAll rest

/-- Hides variables until the function ends. -/
def localVariables : Builtin := fun arguments => do
  if (← get).hidden.isNone then throw "not in a function".toList
  hideAll arguments
  return 0

/-! ## Parameters and options -/

/-- The options by name. -/
def optionNames : List (String × Char) :=
  [("errexit", 'e'), ("noglob", 'f'), ("ignoreeof", 'I'), ("interactive", 'i'), ("monitor", 'm'),
    ("noexec", 'n'), ("stdin", 's'), ("xtrace", 'x'), ("verbose", 'v'), ("vi", 'V'),
    ("emacs", 'E'), ("noclobber", 'C'), ("allexport", 'a'), ("notify", 'b'), ("nounset", 'u'),
    ("privileged", 'p')]

/-- Sets or clears options. -/
def switchOptions (on : Bool) (letters : List Char) : Step Unit := do
  if let some c := letters.find? (!State.letters.contains ·) then
    throw ("Illegal option -".toList ++ [c])
  modify fun s =>
    let others := s.options.filter (!letters.contains ·)
    { s with options := if on then others ++ letters else others }

/-- Sets options and parameters. -/
def setFrom : (budget : Nat) → List Octets → Step Unit
  | budget + 1, argument :: rest =>
    match argument with
    | ['-', '-'] => modify fun s => { s with arguments := rest }
    | ['-'] => do
      switchOptions false ['x', 'v']
      if !rest.isEmpty then modify fun s => { s with arguments := rest }
    | ['+'] => setFrom budget rest
    | sign :: letters => do
      if sign ≠ '-' && sign ≠ '+' then modify fun s => { s with arguments := argument :: rest }
      else if letters.contains 'o' then
        match rest with
        | [] => return ()
        | name :: rest =>
          match optionNames.lookup (String.ofList name) with
          | some c => do
            switchOptions (sign = '-') (letters.filter (· != 'o') ++ [c])
            setFrom budget rest
          | none => throw ("Illegal option -o ".toList ++ name)
      else do
        switchOptions (sign = '-') letters
        setFrom budget rest
    | [] => modify fun s => { s with arguments := argument :: rest }
  | _, _ => return ()

/-- Sets options and parameters, or lists variables. -/
def setting : Builtin := fun arguments => do
  if arguments.isEmpty then emit (listing (← get) "" (·.value.isSome)) 0
  else do
    setFrom arguments.length arguments
    return 0

/-- Drops parameters. -/
def shift : Builtin := fun arguments => do
  let count ← match arguments with
    | [] => pure 1
    | argument :: _ => number argument
  if (← get).arguments.length < count then throw "can't shift that many".toList
  modify fun s => { s with arguments := s.arguments.drop count }
  return 0

/-! ## Signals and children -/

/-- The name of a signal in messages. -/
def signalName (signal : Nat) : Octets :=
  if signal = 0 then "EXIT".toList
  else
    match Signal.names[signal - 1]? with
    | some name => name.toList
    | none => Octets.ofNat signal

/-- The signal of a trap. -/
def trapSignal? (name : Octets) : Option Nat :=
  if name.map Char.toUpper = "EXIT".toList then some 0 else Signal.ofName? name

/-- Sets what is done on signals; nothing means what is usual. -/
def trapAll (action : Option Octets) : List Octets → Step Nat
  | [] => return 0
  | name :: rest => do
    match trapSignal? name with
    | none =>
      Act.complain ("trap: ".toList ++ name ++ ": bad trap\n".toList)
      return 1
    | some signal =>
      modify fun s => { s with
        traps := match action with
          | some text => s.traps.put signal text
          | none => s.traps.erase signal }
      if signal ≠ 0 then
        Work.ask (.handle signal (match action with
          | some [] => .ignore
          | some _ => .catch
          | none => .default))
      trapAll action rest

/-- Sets or lists what is done on signals. -/
def trap : Builtin := fun arguments => do
  let (_, arguments) ← options "" "" arguments
  match arguments with
  | [] =>
    let traps := (← get).traps.mergeSort fun a b => a.1 ≤ b.1
    emit (traps.flatMap fun (signal, text) =>
      "trap -- ".toList ++ singleQuoted text ++ ' ' :: signalName signal ++ ['\n']) 0
  | first :: rest =>
    if rest.isEmpty || first.toNat?.any (· ≤ Signal.greatest) then trapAll none arguments
    else trapAll (if first = ['-'] then none else some first) rest

/-- Sends a signal to processes. -/
def killAll (signal : Nat) (status : Nat) : List Octets → Step Nat
  | [] => return status
  | argument :: rest => do
    let target ← number argument
    if ← Work.ask (.signal target signal) then killAll signal status rest
    else do
      Work.complain "No such process\n".toList
      killAll signal 1 rest

/-- The wording about how signals are sent. -/
def killUsage : Octets :=
  ("Usage: kill [-s sigspec | -signum | -sigspec] [pid | job]... or\n" ++
    "kill -l [exitstatus]").toList

/-- Sends a signal to processes, or lists signals. -/
def kill : Builtin := fun arguments => do
  match arguments with
  | [] => throw killUsage
  | ['-', 'l'] :: [] =>
    emit ('0' :: '\n' :: Signal.names.flatMap fun name => name.toList ++ ['\n']) 0
  | ['-', 'l'] :: argument :: _ =>
    match argument.toNat? with
    | some n =>
      let signal := if n > 128 then n - 128 else n
      if signal = 0 || signal > Signal.greatest then
        throw ("invalid signal number or exit status: ".toList ++ argument)
      emit (signalName signal ++ ['\n']) 0
    | none => throw ("invalid signal number or exit status: ".toList ++ argument)
  | ['-', 's'] :: name :: targets =>
    match Signal.ofName? name with
    | some signal => if targets.isEmpty then throw killUsage else killAll signal 0 targets
    | none => throw ("invalid signal number or name: ".toList ++ name)
  | ['-', '-'] :: targets => if targets.isEmpty then throw killUsage else killAll 15 0 targets
  | ('-' :: c :: name) :: targets =>
    match Signal.ofName? (c :: name) with
    | some signal => if targets.isEmpty then throw killUsage else killAll signal 0 targets
    | none => throw ("Illegal option -".toList ++ [c])
  | targets => killAll 15 0 targets

/-- Waits for the end of a child, unless a signal comes first. -/
def waitFor (child : Nat) : Step (Option Nat) := do
  if !(← get).children.contains child then return some 127
  match ← Work.ask (.wait child true) with
  | some ending =>
    Work.reportEnding ending
    return some ending.status
  | none =>
    let caught ← Work.ask .caught
    modify fun s => { s with pending := s.pending ++ caught }
    return none

/-- Waits for children one after the other; the status is that of the last one. -/
def waitAll (status : Nat) : List Nat → Step Nat
  | [] => return status
  | child :: rest => do
    match ← waitFor child with
    | some status => waitAll status rest
    | none => return 128 + (← get).pending.getLastD 0

/-- The numbers that arguments are. -/
def numbers : List Octets → Step (List Nat)
  | [] => return []
  | argument :: rest => do
    let n ← number argument
    return n :: (← numbers rest)

/-- Waits for children. -/
def wait : Builtin := fun arguments => do
  if arguments.isEmpty then
    let status ← waitAll 0 (← get).children
    return if status > 128 && !(← get).pending.isEmpty then status else 0
  else waitAll 0 (← numbers arguments)

/-! ## Everything else -/

/-- Shows what new files may not allow. -/
def mask : Builtin := fun arguments =>
  match arguments with
  | [] => emit "0022\n".toList 0
  | ['-', 'S'] :: _ => emit "u=rwx,g=rx,o=rx\n".toList 0
  | _ => return 0

/-- The commands whose faults end the shell, but for those that need other commands. -/
def special : List (String × Builtin) :=
  [(":", constant 0), ("export", exporting), ("local", localVariables), ("readonly", fixing),
    ("set", setting), ("shift", shift), ("trap", trap), ("unset", unset)]

/-- The other commands. -/
def ordinary : List (String × Builtin) :=
  [("[", bracket), ("alias", constant 0), ("cd", cd), ("chdir", cd), ("echo", echo),
    ("false", constant 1), ("hash", constant 0), ("jobs", constant 0), ("kill", kill),
    ("printf", printf), ("pwd", pwd), ("read", read), ("test", test), ("true", constant 0),
    ("umask", mask), ("unalias", constant 0), ("wait", wait)]

/-- The command with a name. -/
def find? (name : Octets) : Option Builtin :=
  (special ++ ordinary).lookup (String.ofList name)

/-- The commands that need other commands and whose faults end the shell. -/
def controls : List String :=
  [".", "break", "continue", "eval", "exec", "exit", "return"]

/-- The commands that describe or run commands. -/
def describers : List String :=
  ["command", "type"]

/-- A fault of the command ends the shell. -/
def isSpecial (name : Octets) : Bool :=
  let text := String.ofList name
  controls.contains text || special.any (·.1 == text)

/-- The shell carries the command out itself. -/
def isKnown (name : Octets) : Bool :=
  isSpecial name || (find? name).isSome || describers.contains (String.ofList name)

end Builtin

end SfcProxy.Tool.Shell
