import SfcProxy.Tool.Regex.Reader

/-!
# Editing scripts

A script edits text line by line. Its commands have addresses, which say for which lines they
count, and stand one behind the other; blocks and jumps are kept as the places where they lead.

## Main definitions

* `Sed.Address`, `Sed.Action`, `Sed.Command`: the parts of a script
* `Sed.Script`: a script
-/

namespace SfcProxy.Tool.Sed

/-- A regular expression with the mode in which it is matched; none stands for the one that was
used last. -/
structure Pattern where
  regex : Option Regex
  mode : Regex.Mode
  groups : Nat
  deriving DecidableEq

/-- Which lines a command counts for. -/
inductive Address where
  | line (number : Nat)
  /-- The lines `first`, `first + step`, and so on. -/
  | step (first step : Nat)
  | last
  | matching (pattern : Pattern)
  deriving DecidableEq

/-- Where a range of lines ends. -/
inductive RangeEnd where
  | at (address : Address)
  /-- So many lines further. -/
  | further (count : Nat)
  /-- At the next line whose number is a multiple. -/
  | multiple (number : Nat)
  deriving DecidableEq

/-- The lines that a command counts for. -/
inductive Scope where
  | all
  | one (address : Address)
  | range (start : Address) (stop : RangeEnd)
  deriving DecidableEq

/-- How the case of what follows in a replacement is changed. -/
inductive CaseShift where
  | upper
  | lower
  | upperNext
  | lowerNext
  | none
  deriving DecidableEq

/-- A part of a replacement. -/
inductive Piece where
  | text (t : Text)
  /-- What a group has matched; the group 0 is the whole match. -/
  | group (number : Nat)
  | shift (shift : CaseShift)
  deriving DecidableEq

/-- A substitution. -/
structure Substitution where
  pattern : Pattern
  replacement : List Piece
  global : Bool
  print : Nat
  /-- The number of the match that is replaced first. -/
  number : Nat
  file : Option Octets
  deriving DecidableEq

/-- What a command does. -/
inductive Action where
  /-- A block, which ends at a command. -/
  | block (stop : Nat)
  | nothing
  | number
  | append (text : Text)
  | insert (text : Text)
  | change (text : Text)
  | jump (target : Nat)
  | jumpIf (target : Nat)
  | jumpUnless (target : Nat)
  | delete
  | deleteFirst
  | get
  | getMore
  | hold
  | holdMore
  | exchange
  | list
  | next
  | nextMore
  | print
  | printFirst
  | quit (status : Nat)
  | quitSilently (status : Nat)
  | readFile (file : Octets)
  | writeFile (file : Octets)
  | writeFirst (file : Octets)
  | substitute (s : Substitution)
  | mapChars (pairs : List (TextUnit × TextUnit))
  | name
  | clear
  deriving DecidableEq

/-- A command: the lines that it counts for, whether it counts for all others instead, and what
it does. -/
structure Command where
  scope : Scope
  negated : Bool
  action : Action
  deriving DecidableEq

/-- A script: its commands, and whether lines are printed only on demand. -/
structure Script where
  commands : List Command
  quiet : Bool
  deriving DecidableEq

namespace Script

/-- The files that a script writes. -/
def targets (s : Script) : List Octets :=
  (s.commands.filterMap fun c => match c.action with
    | .writeFile file | .writeFirst file => some file
    | .substitute s => s.file
    | _ => none).eraseDups

/-- The files that a script reads. -/
def sources (s : Script) : List Octets :=
  (s.commands.filterMap fun c => match c.action with
    | .readFile file => some file
    | _ => none).eraseDups

end Script

end SfcProxy.Tool.Sed
