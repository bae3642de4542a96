import SfcProxy.Tool.Shell.Evaluation

/-!
# Calling shells

A shell carries out a script that is given as an argument, stands in a file, or comes in through
its input.

## Main definitions

* `Invocation`: how a shell is called
* `Invocation.read`: reads the arguments of a shell
* `Invocation.process`: the process of a shell
-/

namespace SfcProxy.Tool.Shell

/-- How a shell is called: with the letters of options, perhaps with a script as an argument, and
with further arguments. -/
structure Invocation where
  options : List Char
  isScript : Bool
  arguments : List Octets
  deriving DecidableEq

namespace Invocation

/-- Options that are set or cleared. -/
def switched (options : List Char) (on : Bool) (c : Char) : List Char :=
  let others := options.filter (· != c)
  if on then others ++ [c] else others

/-- Reads the letters behind one sign; gives the arguments that are left. -/
def readLetters (on : Bool) (i : Invocation) : Octets → List Octets →
    Except Octets (Invocation × List Octets)
  | [], rest => return (i, rest)
  | c :: letters, rest => do
    if c = 'c' then readLetters on { i with isScript := true } letters rest
    else if c = 'l' then readLetters on i letters rest
    else if c = 'o' then
      match rest with
      | [] => readLetters on i letters []
      | name :: rest =>
        match Builtin.optionNames.lookup (String.ofList name) with
        | some c => readLetters on { i with options := switched i.options on c } letters rest
        | none => throw ("Illegal option -o ".toList ++ name)
    else if State.letters.contains c then
      readLetters on { i with options := switched i.options on c } letters rest
    else throw ("Illegal option -".toList ++ [c])

/-- Reads arguments, at most `budget` of them. -/
def readFrom (i : Invocation) : (budget : Nat) → List Octets → Except Octets Invocation
  | 0, rest => return { i with arguments := rest }
  | budget + 1, argument :: rest => do
    match argument with
    | ['-'] | ['-', '-'] => return { i with arguments := rest }
    | sign :: letters =>
      if sign = '-' || sign = '+' then do
        let (i, rest) ← readLetters (sign = '-') i letters rest
        readFrom i budget rest
      else return { i with arguments := argument :: rest }
    | [] => return { i with arguments := argument :: rest }
  | _, [] => return i

/-- Reads the arguments of a shell. -/
def read (arguments : List Octets) : Except Octets Invocation :=
  readFrom ⟨[], false, []⟩ (arguments.length + 1) arguments

/-- The state of a shell with a name and arguments. -/
def state (i : Invocation) (environment : List (Octets × Octets)) (name : Octets)
    (arguments : List Octets) : State :=
  { name
    arguments
    options := i.options
    vars := environment.map fun (name, value) => (name, ⟨some value, true, false⟩) }

/-- A shell that cannot start. -/
def refuse (name message : Octets) : Act Nat := do
  Act.complain (name ++ ": 0: ".toList ++ message ++ ['\n'])
  return 2

/-- The process of a shell that is called by a name with arguments in an environment. -/
def process (find : Finder) (name : Octets) (arguments : List Octets)
    (environment : List (Octets × Octets)) : Process :=
  match read arguments with
  | .error message => Act.process (refuse name message)
  | .ok i =>
    if i.isScript then
      match i.arguments with
      | [] => Act.process (refuse name "-c requires an argument".toList)
      | script :: rest =>
        Shell.process find (i.state environment (rest.headD name) rest.tail) true script
    else
      match i.options.contains 's', i.arguments with
      | false, file :: rest => Act.process do
        let tree ← Act.ask .files
        match tree.find file with
        | .error cause => refuse name (Redirection.openFault file .read cause)
        | .ok (_, .directory) => return 0
        | .ok (_, .file bytes _) =>
          Act.become (Shell.process find (i.state environment file rest) false
            (Octets.ofBytes bytes))
      | _, rest => Act.process do
        let i := { i with options := switched i.options true 's' }
        let script := (← Act.readToEnd Act.input).toOption.getD []
        Act.become (Shell.process find (i.state environment name rest) false script)

end Invocation

end SfcProxy.Tool.Shell
