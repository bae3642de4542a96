import SfcProxy.Tool.Shell.Expansion

/-!
# Redirections

During a command streams may lead elsewhere. What they led to before is kept under higher numbers,
and put back afterwards.

## Main definitions

* `Redirection.Change`: a redirection with its words expanded
* `Redirection.prepare`: expands the words of redirections
* `Redirection.apply`: carries redirections out
* `Redirection.restore`: takes them back
-/

namespace SfcProxy.Tool.Shell.Redirection

open Expansion (Step Taking)

/-- What a stream is made to lead to. -/
inductive Target where
  | file (name : Octets) (mode : OpenMode)
  | stream (number : Nat)
  | text (s : Octets)
  | nothing

/-- A stream and what it is made to lead to. -/
structure Change where
  stream : Nat
  target : Target

/-- A stream that was changed, and under which number it is kept; a stream that was closed is
not. -/
structure Kept where
  stream : Nat
  number : Option Nat
  deriving DecidableEq

/-! ## Preparing -/

/-- The stream that a word names; a hyphen names none. -/
def duplicated (word : Octets) : Step Target := do
  if word = ['-'] then return .nothing
  match word.toNat? with
  | some number => if word.length = 1 then return .stream number
  | none => pure ()
  throw "Syntax error: Bad fd number".toList

/-- Expands the words of redirections. -/
def prepare (take : Taking) : List Redirect → Step (List Change)
  | [] => return []
  | .mk stream kind word :: rest => do
    let target ← match kind with
      | .input => do pure (Target.file (← Expansion.text take word) .read)
      | .output => do pure (Target.file (← Expansion.text take word) .write)
      | .append => do pure (Target.file (← Expansion.text take word) .append)
      | .update => do pure (Target.file (← Expansion.text take word) .update)
      | .duplicate => duplicated (← Expansion.text take word)
      | .document number => do
        let body := ((← get).documents.get? number).getD []
        let items ← Expansion.parts take false body
        pure (Target.text (Item.text [' '] items))
    return ⟨stream, target⟩ :: (← prepare take rest)

/-! ## Carrying out -/

/-- The least number under which streams are kept. -/
def leastKept : Nat := 10

/-- Keeps a stream under a number; a stream that is closed is not kept. -/
def keep (stream : Nat) : Work Kept := do
  let number := Numbered.free ((← get).kept.map (·, ())) leastKept
  if ← Work.ask (.duplicate stream number) then
    modify fun s => { s with kept := number :: s.kept }
    return ⟨stream, some number⟩
  else return ⟨stream, none⟩

/-- The wording of a file that cannot be opened. -/
def openFault (name : Octets) (mode : OpenMode) (cause : SystemCause) : Octets :=
  let (verb, missing) := if mode = .read then ("open ", "No such file")
    else ("create ", "Directory nonexistent")
  let reason := if cause = .notFound || cause = .notDirectory then missing.toList
    else Octets.ofText cause.text
  "cannot ".toList ++ verb.toList ++ name ++ ": ".toList ++ reason

/-- Lets a stream lead to where a new one leads, which is given up. -/
def move (stream new : Nat) : Work Kept := do
  -- A closed stream may be the very one that was opened.
  if new = stream then return ⟨stream, none⟩
  let kept ← keep stream
  let _ ← Work.ask (.duplicate new stream)
  Work.ask (.close new)
  return kept

/-- Carries a redirection out; gives what was kept, and a message if it fails. -/
def change (c : Change) : Work (List Kept × Option Octets) := do
  match c.target with
  | .file name mode =>
    match ← Work.ask (.openFile name mode) with
    | .error cause => return ([], some (openFault name mode cause))
    | .ok new => return ([← move c.stream new], none)
  | .text s => return ([← move c.stream (← Work.ask (.source s.bytes))], none)
  | .stream number =>
    if number = c.stream then return ([], none)
    let kept ← keep c.stream
    if ← Work.ask (.duplicate number c.stream) then return ([kept], none)
    return ([kept], some (Octets.ofNat number ++ ": Bad file descriptor".toList))
  | .nothing =>
    let kept ← keep c.stream
    Work.ask (.close c.stream)
    return ([kept], none)

/-- Carries redirections out up to the first that fails; what was kept last comes first. -/
def applyFrom (kept : List Kept) : List Change → Work (List Kept × Option Octets)
  | [] => return (kept, none)
  | c :: rest => do
    let (more, fault) ← change c
    let kept := more ++ kept
    match fault with
    | some message => return (kept, some message)
    | none => applyFrom kept rest

/-- Carries redirections out up to the first that fails; gives what was kept, and a message if one
failed. -/
def apply (changes : List Change) : Work (List Kept × Option Octets) :=
  applyFrom [] changes

/-! ## Taking back -/

/-- Forgets a stream that is kept. -/
def forgetOne (number : Nat) : Work Unit := do
  Work.ask (.close number)
  modify fun s => { s with kept := s.kept.erase number }

/-- Puts streams back to where they led. -/
def restore : List Kept → Work Unit
  | [] => return ()
  | ⟨stream, none⟩ :: rest => do
    Work.ask (.close stream)
    restore rest
  | ⟨stream, some number⟩ :: rest => do
    let _ ← Work.ask (.duplicate number stream)
    forgetOne number
    restore rest

/-- Forgets where streams led. -/
def forget : List Kept → Work Unit
  | [] => return ()
  | ⟨_, none⟩ :: rest => forget rest
  | ⟨_, some number⟩ :: rest => do
    forgetOne number
    forget rest

/-- Closes all streams that are kept, for a program that takes the place of the shell. -/
def closeKept : List Nat → Work Unit
  | [] => return ()
  | number :: rest => do
    Work.ask (.close number)
    closeKept rest

/-- The stream on which commands are shown: the errors as they were before redirections. -/
def shownOn (kept : List Kept) : Nat :=
  match kept.reverse.find? (·.stream = Act.errors) with
  | some ⟨_, some number⟩ => number
  | _ => Act.errors

end SfcProxy.Tool.Shell.Redirection
