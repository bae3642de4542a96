import SfcProxy.Tool.Process
import SfcProxy.Tool.Shell.Pattern
import SfcProxy.Tool.Shell.Reader

/-!
# The state of a shell

What a shell knows while it carries a script out: its parameters and variables, functions,
options, traps and children.

## Main definitions

* `Shell.State`: the state of a shell
* `Shell.State.value?`: the value of a parameter
* `Shell.Item`, `Shell.fields`: what words come to, and how it is split into fields
* `Shell.Finder`: how a shell finds programs
-/

namespace SfcProxy.Tool.Shell

/-- A variable: its value if it is set, whether programs get it, and whether it is fixed. -/
structure Variable where
  value : Option Octets
  exported : Bool := false
  fixed : Bool := false
  deriving DecidableEq

/-- The state of a shell: its name and arguments, variables, functions, the status of the last
command, the letters of its options, what it does on signals, of which 0 is its own end, the
documents of its script, the current line, the command that it carries out itself, its number, its
children in the background, in how many loops it is, the variables that the current function hides
if it is in one, the status of the last command whose output was taken, the streams that it keeps
for later, and the signals that it has caught and not met yet. -/
structure State where
  name : Octets
  arguments : List Octets
  vars : List (Octets × Variable) := []
  functions : List (Octets × Command) := []
  status : Nat := 0
  options : List Char := []
  traps : Numbered Octets := []
  documents : Documents := []
  line : Nat := 1
  running : Option Octets := none
  number : Nat := 0
  children : List Nat := []
  loops : Nat := 0
  hidden : Option (List (Octets × Option Variable)) := none
  taken : Option Nat := none
  kept : List Nat := []
  pending : List Nat := []

/-- How a shell finds the process that a program with a name, arguments and an environment is. -/
abbrev Finder := FileTree → Octets → List Octets → List (Octets × Octets) →
  Except SystemCause Process

namespace State

/-! ## Variables -/

/-- A variable. -/
def named? (s : State) (name : Octets) : Option Variable :=
  s.vars.lookup name

/-- Puts a variable, in place of the one with its name. -/
def putVariable (s : State) (name : Octets) (v : Variable) : State :=
  { s with vars := s.vars.filter (·.1 ≠ name) ++ [(name, v)] }

/-- Removes a variable. -/
def removeVariable (s : State) (name : Octets) : State :=
  { s with vars := s.vars.filter (·.1 ≠ name) }

/-- Sets a variable, which stays exported if it was. -/
def set (s : State) (name value : Octets) : State :=
  let old := (s.named? name).getD ⟨none, s.options.contains 'a', false⟩
  s.putVariable name { old with value := some value }

/-- A variable that may not be changed. -/
def isFixed (s : State) (name : Octets) : Bool :=
  (s.named? name).any (·.fixed)

/-- The variables that programs get. -/
def environment (s : State) : List (Octets × Octets) :=
  s.vars.filterMap fun (name, v) =>
    if v.exported then v.value.map fun value => (name, value) else none

/-- The characters between which fields lie. -/
def separators (s : State) : Octets :=
  match s.named? "IFS".toList with
  | some ⟨some value, _, _⟩ => value
  | _ => " \t\n".toList

/-- The letters of the options in the order in which they are shown. -/
def letters : List Char :=
  "pubaCEVvxsnmiIfe".toList

/-- An option is set. -/
def has (s : State) (letter : Char) : Bool :=
  s.options.contains letter

/-! ## Parameters -/

/-- The value of a parameter but for `@` and `*`; nothing if it is not set. -/
def value? (s : State) (name : Octets) : Option Octets :=
  match name with
  | ['#'] => some (Octets.ofNat s.arguments.length)
  | ['?'] => some (Octets.ofNat s.status)
  | ['$'] => some (Octets.ofNat s.number)
  | ['-'] => some (letters.filter s.options.contains)
  | ['!'] => s.children.getLast?.map Octets.ofNat
  | ['0'] => some s.name
  | _ =>
    match name.toNat? with
    | some n => (s.arguments.drop (n - 1)).head?
    | none => (s.named? name).bind (·.value)

/-! ## Messages -/

/-- The text that stands in front of a message. -/
def heading (s : State) : Octets :=
  let parts := [s.name, Octets.ofNat s.line] ++ s.running.toList
  parts.flatMap (· ++ ": ".toList)

end State

/-- What a shell does: it works on its state as it acts. -/
abbrev Work := StateT State Act

namespace Work

/-- Asks for something. -/
def ask (request : Request) : Work request.Reply :=
  fun s => do return (← Act.ask request, s)

/-- Complains. -/
def complain (message : Octets) : Work Unit := do
  Act.complain ((← get).heading ++ message ++ ['\n'])

/-- Starts a child that works on its own; the number of the child is given. -/
def fork (change : State → State) (child : Work Unit) : Work Nat := fun s => do
  let process := Act.process do
    let (_, s) ← child (change s)
    return s.status
  return (← Act.fork process, s)

/-- Tells that a child was ended by a signal, unless this is nothing special. -/
def reportEnding : Ending → Work Unit
  | .killed signal => do
    if signal ≠ Signal.interrupt && signal ≠ Signal.pipe then
      Act.complain (Signal.subject signal ++ ['\n'])
  | .exited _ => return ()

/-- Waits for the end of a child and gives its status. -/
def await (child : Nat) : Work Nat := do
  match ← ask (.wait child false) with
  | some ending =>
    reportEnding ending
    return ending.status
  | none => return 0

end Work

/-! ## Fields -/

/-- What a word comes to, piece by piece: a character with whether it is quoted and whether it may
part fields, a place where a field ends in any case, and quotes. -/
inductive Item where
  | char (c : Char) (quoted parts : Bool)
  | cut
  | mark
  deriving DecidableEq

namespace Item

/-- Text as items. -/
def ofText (s : Octets) (quoted parts : Bool) : List Item :=
  s.map fun c => .char c quoted parts

/-- The glyphs of items; where fields end, the first separator stands. -/
def glyphs (separators : Octets) (items : List Item) : List Pattern.Glyph :=
  items.flatMap fun
    | .char c quoted _ => [(c, quoted)]
    | .cut => (separators.take 1).map fun c => (c, true)
    | .mark => []

/-- The text of items. -/
def text (separators : Octets) (items : List Item) : Octets :=
  (glyphs separators items).map (·.1)

end Item

/-- Where splitting stands: the fields so far, last first, the current one, last first, if there is
one, and whether blanks just ended a field. -/
structure Splitting where
  fields : List (List Item)
  current : Option (List Item)
  blank : Bool

/-- One more item is split. -/
def Splitting.step (separators : Octets) (s : Splitting) (item : Item) : Splitting :=
  let closed : List (List Item) := match s.current with
    | some field => field :: s.fields
    | none => s.fields
  match item with
  | .mark => { s with current := some (s.current.getD []), blank := false }
  | .cut => ⟨closed, none, false⟩
  | .char c _ parts =>
    if parts && separators.contains c then
      if c == ' ' || c == '\t' || c == '\n' then
        ⟨closed, none, s.blank || s.current.isSome⟩
      else if s.current.isSome then ⟨closed, none, false⟩
      else if s.blank then { s with blank := false }
      else ⟨[] :: s.fields, none, false⟩
    else ⟨s.fields, some (item :: s.current.getD []), false⟩

/-- The fields that items come to. -/
def fields (separators : Octets) (items : List Item) : List (List Item) :=
  let s := items.foldl (Splitting.step separators) ⟨[], none, false⟩
  let all := match s.current with
    | some field => field :: s.fields
    | none => s.fields
  all.reverse.map List.reverse

/-- The items of all arguments of a shell, as `@` or `*` stands for them. -/
def argumentItems (s : State) (star quoted : Bool) : List Item :=
  let pieces := s.arguments.map fun a => Item.ofText a quoted (!quoted)
  if star && quoted then
    let between : List Item := match s.separators with
      | c :: _ => [.char c true false]
      | [] => []
    List.intercalate between pieces
  else
    -- Each argument counts, even an empty one in quotes.
    List.intercalate [.cut] (pieces.map fun p => if quoted then .mark :: p else p)

/-! ## Flow -/

/-- How a script goes on after a command. -/
inductive Flow where
  | on
  /-- Leaves so many loops. -/
  | leave (loops : Nat)
  /-- Goes on with the next turn of the outermost of so many loops. -/
  | again (loops : Nat)
  /-- Leaves a function. -/
  | back
  deriving DecidableEq

end SfcProxy.Tool.Shell
