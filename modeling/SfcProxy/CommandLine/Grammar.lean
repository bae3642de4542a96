import SfcProxy.Text.Digit
import SfcProxy.Text.Quoted

/-!
# Grammars of command lines

A command line is a list of arguments. A grammar says which flags a program has. A flag may be
shortened to any beginning of its name that no other flag shares, and its value may follow as the
next argument or in the same one behind an equals sign. Whatever a grammar does not know is
collected and left to the caller.

## Main definitions

* `Flag`, `Grammar`: the flags of a program
* `Misuse`: what can be wrong with a command line
* `Stop`: why a command line is not carried out
* `Grammar.role`: what an argument is
* `Grammar.read`: the flags, the unknown arguments and the command on a command line
-/

namespace SfcProxy.CommandLine

/-! ## Flags -/

/-- What a flag does. -/
inductive Effect where
  | help
  | version
  | switch
  /-- The flag takes a value, which is one of the choices unless there are none. -/
  | value (choices : List Text)
  deriving DecidableEq

/-- A flag by its names. -/
structure Flag where
  names : List Text
  effect : Effect
  deriving DecidableEq

/-- All names of a flag in one. -/
def Flag.title (flag : Flag) : Text :=
  Text.join "/" flag.names

/-- The flags of a program, how it is used, and what its help says behind that. -/
structure Grammar where
  program : Text
  flags : List Flag
  usage : List Text
  description : List Text
  deriving DecidableEq

/-! ## Misuse -/

/-- What can be wrong with a command line. -/
inductive Misuse where
  | ambiguous (argument : Text) (candidates : List Text)
  | missingValue (title : Text)
  /-- A flag without a value has one attached. -/
  | surplusValue (title value : Text)
  | invalidChoice (title value : Text) (choices : List Text)
  | missing (title : Text)
  | unrecognized (arguments : List Text)
  deriving DecidableEq

/-- The wording of a misuse. -/
def Misuse.message : Misuse → Text
  | ambiguous argument candidates =>
    ("ambiguous option: " : Text) ++ argument ++ (" could match " : Text)
      ++ Text.join ", " candidates
  | missingValue title => ("argument " : Text) ++ title ++ (": expected one argument" : Text)
  | surplusValue title value =>
    ("argument " : Text) ++ title ++ (": ignored explicit argument " : Text) ++ value.quoted
  | invalidChoice title value choices =>
    ("argument " : Text) ++ title ++ (": invalid choice: " : Text) ++ value.quoted
      ++ (" (choose from " : Text) ++ Text.join ", " (choices.map Text.quoted) ++ (")" : Text)
  | missing title => ("the following arguments are required: " : Text) ++ title
  | unrecognized arguments => ("unrecognized arguments: " : Text) ++ Text.join " " arguments

/-- Why a command line is not carried out: it asks for help or the version, or it is wrong. -/
inductive Stop where
  | help (grammar : Grammar)
  | version
  | misuse (grammar : Grammar) (misuse : Misuse)
  deriving DecidableEq

/-! ## Arguments -/

/-- The unit that starts flags. -/
def hyphen : TextUnit := .scalar '-'

/-- The unit between a flag and its value. -/
def equals : TextUnit := .scalar '='

/-- What an argument is. -/
inductive Role where
  | plain
  /-- The two hyphens behind which all arguments are plain. -/
  | separator
  /-- A flag, and the text that stands in the same argument behind it. -/
  | flag (flag : Flag) (name : Text) (attached : Option Text)
  | unknownFlag
  deriving DecidableEq

/-- The part of an argument before its first equals sign, and the part behind it if there is
one. -/
def splitValue (argument : Text) : Text × Option Text :=
  let name := argument.takeWhile (· != equals)
  match argument.drop name.length with
  | [] => (name, none)
  | _ :: value => (name, some value)

/-- An argument is a negative number: a hyphen and digits, of which at least the last one stands
behind the point if there is one. One line break may follow. -/
def isNegativeNumber (argument : Text) : Bool :=
  let argument := if argument.getLast? = some (.scalar '\n') then argument.dropLast else argument
  match argument with
  | [] => false
  | u :: body =>
    let whole := body.takeWhile Text.isDigit
    u == hyphen &&
      match body.drop whole.length with
      | [] => !whole.isEmpty
      | point :: fraction =>
        point == .scalar '.' && !fraction.isEmpty && fraction.all Text.isDigit

namespace Grammar

/-- The flag with a name. -/
def flag? (g : Grammar) (name : Text) : Option Flag :=
  g.flags.find? (·.names.contains name)

/-- The flags that an argument may abbreviate, each with its full name. A single hyphen starts a
short flag, to which more may be attached. -/
def candidates (g : Grammar) (argument : Text) : List (Flag × Text × Option Text) :=
  let all := g.flags.flatMap fun flag => flag.names.map fun name => (flag, name)
  if argument.drop 1 |>.head? |>.any (· = hyphen) then
    let (start, value) := splitValue argument
    (all.filter fun (_, name) => start.isPrefixOf name).map fun (flag, name) => (flag, name, value)
  else
    all.filterMap fun (flag, name) =>
      if name = argument.take 2 then some (flag, name, some (argument.drop 2))
      else if argument.isPrefixOf name then some (flag, name, none)
      else none

/-- What an argument that starts with a hyphen is if it is no exact name of a flag. -/
def abbreviation (g : Grammar) (argument : Text) : Except Misuse Role :=
  match g.candidates argument with
  | [(flag, name, attached)] => .ok (.flag flag name attached)
  | [] =>
    .ok (if isNegativeNumber argument || argument.contains (.scalar ' ') then .plain
      else .unknownFlag)
  | several => .error (.ambiguous argument (several.map fun (_, name, _) => name))

/-- What an argument is. -/
def role (g : Grammar) (argument : Text) : Except Misuse Role :=
  if argument.head? ≠ some hyphen then .ok .plain
  else
    match g.flag? argument with
    | some flag => .ok (.flag flag argument none)
    | none =>
      if argument.length = 1 then .ok .plain
      else
        match splitValue argument with
        | (name, some value) =>
          match g.flag? name with
          | some flag => .ok (.flag flag name (some value))
          | none => g.abbreviation argument
        | _ => g.abbreviation argument

/-- What the arguments of a command line are. -/
def roles (g : Grammar) : List Text → Except Misuse (List (Text × Role))
  | [] => .ok []
  | argument :: rest =>
    if argument = [hyphen, hyphen] then
      .ok ((argument, .separator) :: rest.map fun plain => (plain, .plain))
    else do
      let role ← g.role argument
      let roles ← g.roles rest
      return (argument, role) :: roles

/-! ## Reading -/

/-- What a command line says: the flags with their values, the arguments that the grammar does not
know, and the command with its arguments. -/
structure Reading where
  given : List (Flag × Text)
  unknown : List Text
  command : List Text
  deriving DecidableEq

/-- A reading with one more flag in front. -/
def Reading.withFlag (r : Reading) (flag : Flag) (value : Text) : Reading :=
  { r with given := (flag, value) :: r.given }

/-- A reading with one more unknown argument in front. -/
def Reading.withUnknown (r : Reading) (argument : Text) : Reading :=
  { r with unknown := argument :: r.unknown }

/-- Checks the value of a flag. -/
def check (g : Grammar) (flag : Flag) (value : Text) : Except Stop Unit :=
  match flag.effect with
  | .value (choice :: choices) =>
    if (choice :: choices).contains value then .ok ()
    else .error (.misuse g (.invalidChoice flag.title value (choice :: choices)))
  | _ => .ok ()

/-- The flags in one argument behind a short flag without a value, each a letter; there may be
nothing else. -/
def cluster (g : Grammar) (flag : Flag) : Text → Except Misuse (List Flag)
  | [] => .error (.surplusValue flag.title [])
  | u :: rest =>
    match g.flag? [hyphen, u], rest with
    | none, _ => .error (.surplusValue flag.title (u :: rest))
    | some next, [] => .ok [flag, next]
    | some next, v :: more => (g.cluster next (v :: more)).map (flag :: ·)

/-- The flags in an argument whose first flag takes no value. -/
def switches (g : Grammar) (flag : Flag) (name : Text) (attached : Option Text) :
    Except Misuse (List Flag) :=
  match attached with
  | none => .ok [flag]
  | some text =>
    if name.drop 1 |>.head? |>.any (· = hyphen) then .error (.surplusValue flag.title text)
    else g.cluster flag text

/-- Carries out flags without a value: a request for help or the version ends the reading. -/
def stop? (g : Grammar) (flags : List Flag) : Option Stop :=
  flags.findSome? fun flag =>
    match flag.effect with
    | .help => some (.help g)
    | .version => some .version
    | _ => none

/-- Reads arguments from left to right. Where a command is expected, the first plain argument and
all that follows it are the command. -/
def readFrom (g : Grammar) (expectsCommand : Bool) : List (Text × Role) → Except Stop Reading
  | [] => .ok ⟨[], [], []⟩
  | (argument, role) :: rest =>
    match role with
    | .unknownFlag => (readFrom g expectsCommand rest).map (·.withUnknown argument)
    | .plain =>
      -- The command reads its own arguments, whatever they look like from here.
      if expectsCommand then .ok ⟨[], [], argument :: rest.map (·.1)⟩
      else (readFrom g expectsCommand rest).map (·.withUnknown argument)
    | .separator =>
      if expectsCommand && !rest.isEmpty then .ok ⟨[], [], argument :: rest.map (·.1)⟩
      else (readFrom g expectsCommand rest).map (·.withUnknown argument)
    | .flag flag name attached =>
      match flag.effect with
      | .value _ =>
        match attached with
        | some value => do
          g.check flag value
          (readFrom g expectsCommand rest).map (·.withFlag flag value)
        | none =>
          match rest with
          | (value, .plain) :: rest => do
            g.check flag value
            (readFrom g expectsCommand rest).map (·.withFlag flag value)
          | _ => .error (.misuse g (.missingValue flag.title))
      | _ =>
        match g.switches flag name attached with
        | .error m => .error (.misuse g m)
        | .ok flags =>
          match g.stop? flags with
          -- Nothing behind a request for help is read, not even its faults.
          | some stop => .error stop
          | none => (readFrom g expectsCommand rest).map fun r =>
              { r with given := flags.map (·, []) ++ r.given }

/-- Reads a command line. All arguments are looked at before the first one is carried out. -/
def read (g : Grammar) (expectsCommand : Bool) (arguments : List Text) : Except Stop Reading :=
  match g.roles arguments with
  | .error m => .error (.misuse g m)
  | .ok roles => g.readFrom expectsCommand roles

end Grammar

end SfcProxy.CommandLine
