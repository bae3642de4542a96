import SfcProxy.FileTree
import SfcProxy.Tool.Signal

/-!
# Processes

A process is seen from the system: it asks for something, goes on with the reply, and in the end
exits. Since the reply is all that it learns, a process is a tree that branches over replies.
Programs are written as actions, which say what a process does before it goes on.

## Main definitions

* `Request`, `Request.Reply`: what a process asks for, and what it gets
* `Process`: a process from now on
* `Act`: the part of a process up to a result
-/

namespace SfcProxy.Tool

/-- How a file is opened. -/
inductive OpenMode where
  | read
  /-- The file is emptied, or made. -/
  | write
  /-- Bytes are added at the end; a missing file is made. -/
  | append
  /-- The file is read and written in place; a missing file is made. -/
  | update
  deriving DecidableEq

/-- What stands behind a stream. -/
inductive StreamKind where
  | pipe
  | file (size : Nat)
  | directory
  | nothing
  deriving DecidableEq

/-- How a process handles a signal. -/
inductive Handling where
  | default
  | ignore
  /-- The process is told. -/
  | catch
  deriving DecidableEq

/-- What a process asks for. Streams are known by their numbers. -/
inductive Request where
  | read (stream most : Nat)
  | write (stream : Nat) (bytes : List UInt8)
  | openFile (name : Octets) (mode : OpenMode)
  /-- A stream that holds some bytes. -/
  | source (bytes : List UInt8)
  /-- A pipe: the stream that reads and the one that writes. -/
  | pipe
  /-- Lets the second stream lead to where the first one leads. -/
  | duplicate (stream target : Nat)
  | close (stream : Nat)
  /-- What stands behind a stream, if it is open. -/
  | kind (stream : Nat)
  /-- The files, as seen from the directory of the process. -/
  | files
  /-- Changes the files. -/
  | change (f : FileTree → Except SystemCause FileTree)
  /-- Changes the directory of the process. -/
  | enter (name : Octets)
  | sleep (microseconds : Nat)
  /-- Waits for the end of a child; the wait may be cut short by a signal. -/
  | wait (child : Nat) (interruptible : Bool)
  | handle (signal : Nat) (handling : Handling)
  /-- The signals that were caught since the last time. -/
  | caught
  | signal (process signal : Nat)
  /-- The number of the process. -/
  | self

/-- What a process gets for a request. -/
@[reducible] def Request.Reply : Request → Type
  | read _ _ => Except SystemCause (List UInt8)
  | write _ _ => Except SystemCause Unit
  | openFile _ _ => Except SystemCause Nat
  | source _ => Nat
  | pipe => Nat × Nat
  | duplicate _ _ => Bool
  | close _ => Unit
  | kind _ => Option StreamKind
  | files => FileTree
  | change _ => Except SystemCause Unit
  | enter _ => Except SystemCause Unit
  | sleep _ => Unit
  | wait _ _ => Option Ending
  | handle _ _ => Unit
  | caught => List Nat
  | signal _ _ => Bool
  | self => Nat

/-- A process from now on. -/
inductive Process where
  | exit (status : Nat)
  | ask (request : Request) (next : request.Reply → Process)
  /-- Starts a child and goes on with its number. -/
  | fork (child : Process) (next : Nat → Process)

/-- What a process does up to a result, with which it goes on. -/
def Act (α : Type) : Type :=
  (α → Process) → Process

namespace Act

instance : Monad Act where
  pure a := fun next => next a
  bind act f := fun next => act fun a => f a next

/-- Asks for something. -/
def ask (request : Request) : Act request.Reply :=
  fun next => .ask request next

/-- Ends the process. -/
def exit {α : Type} (status : Nat) : Act α :=
  fun _ => .exit (status % 256)

/-- Goes on as another process. -/
def become {α : Type} (process : Process) : Act α :=
  fun _ => process

/-- Starts a child. -/
def fork (child : Process) : Act Nat :=
  fun next => .fork child next

/-- The process that ends with the status of an action. -/
def process (act : Act Nat) : Process :=
  act fun status => .exit (status % 256)

/-! ## Streams -/

/-- The number of the standard input. -/
def input : Nat := 0

/-- The number of the standard output. -/
def output : Nat := 1

/-- The number of the standard error. -/
def errors : Nat := 2

/-- The number of bytes that are read at once. -/
def pieceSize : Nat := 65536

/-- How often a loop of a process may run. -/
def budget : Nat := 10000000

/-- Writes octets to a stream; a failure is passed over. -/
def put (stream : Nat) (s : Octets) : Act Unit := do
  if s.isEmpty then return ()
  let _ ← ask (.write stream s.bytes)

/-- Writes octets to the standard output. -/
def say (s : Octets) : Act Unit :=
  put output s

/-- Writes octets to the standard error. -/
def complain (s : Octets) : Act Unit :=
  put errors s

/-- Reads a stream to its end, in at most `budget` pieces; `read` holds those so far, last
first. -/
def readToEndFrom (stream : Nat) (read : List (List UInt8)) :
    (budget : Nat) → Act (Except SystemCause Octets)
  | 0 => return .ok (Octets.ofBytes read.reverse.flatten)
  | budget + 1 => do
    match ← ask (.read stream pieceSize) with
    | .error cause => return .error cause
    | .ok [] => return .ok (Octets.ofBytes read.reverse.flatten)
    | .ok piece => readToEndFrom stream (piece :: read) budget

/-- Reads a stream to its end. -/
def readToEnd (stream : Nat) : Act (Except SystemCause Octets) :=
  readToEndFrom stream [] budget

end Act

end SfcProxy.Tool
