import SfcProxy.Text.Octets

/-!
# Signals

The signals of the system by number, and how processes end.

## Main definitions

* `Signal.names`, `Signal.ofName?`: signals and their names
* `Signal.Effect`: what a signal does to a process that does not handle it
* `Ending`: how a process ends
-/

namespace SfcProxy.Tool

namespace Signal

/-- The names of the signals, from number 1 on. -/
def names : List String :=
  ["HUP", "INT", "QUIT", "ILL", "TRAP", "ABRT", "BUS", "FPE", "KILL", "USR1", "SEGV", "USR2",
    "PIPE", "ALRM", "TERM", "STKFLT", "CHLD", "CONT", "STOP", "TSTP", "TTIN", "TTOU", "URG",
    "XCPU", "XFSZ", "VTALRM", "PROF", "WINCH", "IO", "PWR", "SYS"]

/-- What signals are about, from number 1 on. -/
def subjects : List String :=
  ["Hangup", "Interrupt", "Quit", "Illegal instruction", "Trace/breakpoint trap", "Aborted",
    "Bus error", "Floating point exception", "Killed", "User defined signal 1",
    "Segmentation fault", "User defined signal 2", "Broken pipe", "Alarm clock", "Terminated",
    "Stack fault", "Child exited", "Continued", "Stopped (signal)", "Stopped",
    "Stopped (tty input)", "Stopped (tty output)", "Urgent I/O condition",
    "CPU time limit exceeded", "File size limit exceeded", "Virtual timer expired",
    "Profiling timer expired", "Window changed", "I/O possible", "Power failure",
    "Bad system call"]

/-- What a signal is about. -/
def subject (signal : Nat) : Octets :=
  match subjects[signal - 1]? with
  | some text => text.toList
  | none => "Real-time signal ".toList ++ Octets.ofNat (signal - 34)

/-- The signal of a key that interrupts. -/
def interrupt : Nat := 2

/-- The signal of a key that quits. -/
def quit : Nat := 3

/-- The signal that ends a process at once. -/
def kill : Nat := 9

/-- The signal that a process gets for writing where nobody reads. -/
def pipe : Nat := 13

/-- The signal that asks a process to end. -/
def terminate : Nat := 15

/-- The greatest number of a signal. -/
def greatest : Nat := 64

/-- The signal with a name, in whatever case and with or without `SIG` in front of it, or with a
number. -/
def ofName? (name : Octets) : Option Nat :=
  match name.toNat? with
  | some n => if n ≤ greatest then some n else none
  | none =>
    let upper := name.map Char.toUpper
    let bare := if "SIG".toList.isPrefixOf upper then upper.drop 3 else upper
    (names.findIdx? (·.toList = bare)).map (· + 1)

/-- What a signal does to a process that does not handle it. -/
inductive Effect where
  | ends
  | nothing
  /-- The process stands still. -/
  | stops
  deriving DecidableEq

/-- The effect of a signal. -/
def effect (signal : Nat) : Effect :=
  if [17, 18, 23, 28].contains signal then .nothing
  else if [19, 20, 21, 22].contains signal then .stops
  else .ends

end Signal

/-- How a process ends. -/
inductive Ending where
  | exited (status : Nat)
  | killed (signal : Nat)
  deriving DecidableEq

namespace Ending

/-- The code of an ending; signals count below zero. -/
def code : Ending → Int
  | exited status => status
  | killed signal => -(signal : Int)

/-- The status that a shell gives an ending. -/
def status : Ending → Nat
  | exited status => status
  | killed signal => 128 + signal

end Ending

end SfcProxy.Tool
