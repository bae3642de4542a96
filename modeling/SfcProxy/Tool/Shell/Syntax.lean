import SfcProxy.Tool.Numbered
import SfcProxy.Text.Octets

/-!
# The language of the shell

Scripts are made of commands, and commands of words. A word consists of parts that come to text
when it is expanded; whether a part stands in quotes decides what happens to its text afterwards.

## Main definitions

* `Shell.Part`, `Shell.Word`: parts of words
* `Shell.Redirect`: where a stream leads during a command
* `Shell.Command`: commands
-/

namespace SfcProxy.Tool.Shell

/-- What is done with a parameter. With `orEmpty` an empty parameter counts as one that is not
set. -/
inductive Operation where
  | plain
  | length
  /-- A word takes the place of a missing parameter. -/
  | fallback (orEmpty : Bool)
  /-- A missing parameter is set to a word. -/
  | assign (orEmpty : Bool)
  /-- A missing parameter is an error. -/
  | require (orEmpty : Bool)
  /-- A word takes the place of a parameter that is not missing. -/
  | alternative (orEmpty : Bool)
  | trimEnd (longest : Bool)
  | trimStart (longest : Bool)
  /-- The operation is none. -/
  | bad
  deriving DecidableEq

/-- What a redirection does to a stream. -/
inductive RedirectKind where
  | input
  | output
  | append
  | update
  /-- The stream leads to where another one leads, or is closed. -/
  | duplicate
  /-- The stream reads the document with a number. -/
  | document (number : Nat)
  deriving DecidableEq

mutual

/-- A part of a word. -/
inductive Part where
  | text (s : Octets) (quoted : Bool)
  /-- Quotes, which make a word count even if it comes to nothing. -/
  | quotes
  | parameter (name : Octets) (operation : Operation) (word : List Part) (quoted : Bool)
  /-- What a command prints. -/
  | command (body : Command) (quoted : Bool)
  | arithmetic (expression : List Part) (quoted : Bool)

/-- A redirection of a stream. -/
inductive Redirect where
  | mk (stream : Nat) (kind : RedirectKind) (target : List Part)

/-- A command. -/
inductive Command where
  | nothing
  | simple (line : Nat) (assignments : List (Octets × List Part)) (words : List (List Part))
    (redirects : List Redirect)
  | pipeline (stages : List Command)
  | negate (body : Command)
  | both (first second : Command)
  | either (first second : Command)
  | sequence (first second : Command)
  | background (body : Command)
  | subshell (body : Command)
  | redirected (body : Command) (redirects : List Redirect)
  | choice (test body : Command) (otherwise : Command)
  | loop (negated : Bool) (test body : Command)
  | each (name : Octets) (words : Option (List (List Part))) (body : Command)
  | cases (subject : List Part) (branches : List (List (List Part) × Command))
  | define (name : Octets) (body : Command)

end

/-- A word. -/
abbrev Word := List Part

/-- The documents that stand in a script, by number. -/
abbrev Documents := Numbered Word

/-! ## Names -/

/-- A character that a name may start with. -/
def isNameStart (c : Char) : Bool :=
  c.isAlpha || c == '_'

/-- A character of a name. -/
def isNameChar (c : Char) : Bool :=
  c.isAlphanum || c == '_'

/-- A name of a variable. -/
def isName (s : Octets) : Bool :=
  match s with
  | [] => false
  | c :: rest => isNameStart c && rest.all isNameChar

/-- A letter that names a special parameter. -/
def isSpecial (c : Char) : Bool :=
  "@*#?-$!".toList.contains c

/-- The words that have a meaning where a command is expected. -/
def reserved : List String :=
  ["!", "case", "do", "done", "elif", "else", "esac", "fi", "for", "if", "in", "then", "until",
    "while", "\x7b", "\x7d"]

end SfcProxy.Tool.Shell
