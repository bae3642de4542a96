import SfcProxy.Tool.Process
import SfcProxy.Tool.Utility.Options

/-!
# Utilities

The small programs that scripts are made of. A utility is called by a name with arguments; it
works on its streams and ends with a status.

## Main definitions

* `Utility`: what a utility does
* `Utility.withOptions`: a utility that reads options first
* `Utility.filter`: a utility that turns its whole input into output
-/

namespace SfcProxy.Tool

/-- What a utility does when it is called by a name with arguments; it gives its status. -/
abbrev Utility := Octets → List Octets → Act Nat

namespace Utility

open Act
open scoped Octets

/-! ## Messages -/

/-- Complains about something under the name of the utility. -/
def grumble (name message : Octets) : Act Unit :=
  complain (name ++ ": ".toList ++ message ++ ['\n'])

/-- Octets between the quotes that utilities put around names. -/
def quoted (s : Octets) : Octets :=
  Octets.ofString "‘" ++ s ++ Octets.ofString "’"

/-- The wording of a cause. -/
def causeText (cause : SystemCause) : Octets :=
  Octets.ofText cause.text

/-- Complains about a file. -/
def grumbleAbout (name file : Octets) (cause : SystemCause) : Act Unit :=
  grumble name (file ++ ": ".toList ++ causeText cause)

/-- The hint below a complaint about how a utility is called. -/
def hint (name : Octets) : Octets :=
  "Try '".toList ++ name ++ " --help' for more information.\n".toList

/-- Complains about how a utility is called. -/
def misuse (status : Nat) (name message : Octets) : Act Nat := do
  grumble name message
  complain (hint name)
  return status

/-- Complains and gives a status. -/
def fail (status : Nat) (name message : Octets) : Act Nat := do
  grumble name message
  return status

/-- A utility that reads options first; bad options end it with a status. -/
def withOptions (specs : List Options.Spec) (status : Nat)
    (run : Octets → Options.Reading → Act Nat) : Utility := fun name arguments =>
  match Options.read specs false arguments with
  | .error message => misuse status name message
  | .ok reading => run name reading

/-! ## Streams -/

/-- Writes octets to the output; gives whether this went well. -/
def emit (name s : Octets) : Act Bool := do
  if s.isEmpty then return true
  match ← ask (.write output s.bytes) with
  | .ok () => return true
  | .error cause =>
    grumble name ("write error: ".toList ++ causeText cause)
    return false

/-- Writes octets to the output at the end of a utility, which has a status so far. -/
def emitLast (name s : Octets) (status : Nat) : Act Nat := do
  return if ← emit name s then status else 1

/-- The stream that reads a file; a hyphen stands for the input. -/
def openOperand (file : Octets) : Act (Except SystemCause Nat) :=
  if file = ['-'] then return .ok input else ask (.openFile file .read)

/-- Closes the stream of a file, but not the input. -/
def closeOperand (stream : Nat) : Act Unit :=
  if stream = input then return () else ask (.close stream)

/-- The content of a file. -/
def readOperand (file : Octets) : Act (Except SystemCause Octets) := do
  match ← openOperand file with
  | .error cause => return .error cause
  | .ok stream =>
    let content ← readToEnd stream
    closeOperand stream
    return content

/-- The contents of the files that can be read, with their names; whether all could be is told
too. Complaints come as they arise. -/
def readOperands (name : Octets) : List Octets → Act (List (Octets × Octets) × Bool)
  | [] => return ([], true)
  | file :: rest => do
    match ← readOperand file with
    | .ok content =>
      let (more, well) ← readOperands name rest
      return ((file, content) :: more, well)
    | .error cause =>
      grumbleAbout name file cause
      let (more, _) ← readOperands name rest
      return (more, false)

/-- The operands, or the input where there are none. -/
def orInput (operands : List Octets) : List Octets :=
  if operands.isEmpty then [['-']] else operands

/-- A utility that turns the whole content of its operands into output. -/
def filter (name : Octets) (operands : List Octets) (f : Octets → Octets) : Act Nat := do
  let (contents, well) ← readOperands name (orInput operands)
  emitLast name (f (contents.flatMap (·.2))) (if well then 0 else 1)

/-- A utility that turns the content of each operand into output. -/
def filterEach (name : Octets) (operands : List Octets) (f : Octets → Octets) : Act Nat := do
  let (contents, well) ← readOperands name (orInput operands)
  emitLast name (contents.flatMap fun (_, content) => f content) (if well then 0 else 1)

/-! ## Numbers and words -/

/-- White space between words. -/
def isSpace (c : Char) : Bool :=
  c == ' ' || (9 ≤ c.toNat && c.toNat ≤ 13)

/-- The greatest number that utilities count with. -/
def greatest : Nat := 18446744073709551615

/-- The factor of a suffix of a count. -/
def unit? : Octets → Option Nat
  | [] => some 1
  | ['b'] => some 512
  | c :: rest => do
    let letter := if c = 'k' then 'K' else if c = 'm' then 'M' else c
    let power ← "KMGTPEZY".toList.findIdx? (· == letter)
    match rest with
    | [] | ['i', 'B'] => some (Nat.pow 1024 (power + 1))
    | ['B'] => some (Nat.pow 1000 (power + 1))
    | _ => none

/-- The count that octets write, with a suffix for its unit. -/
def count? (s : Octets) : Option Nat := do
  let digits := s.takeWhile Char.isDigit
  if digits.isEmpty then none
  let factor ← unit? (s.drop digits.length)
  return min (Octets.digitsValue 10 digits * factor) greatest

end Utility

end SfcProxy.Tool
