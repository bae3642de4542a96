import SfcProxy.Tool.Machine

/-!
# Supervision

Whoever starts a program feeds its input, watches its output, waits for it, and brings it to its
end. Time passes only while someone waits.

## Main definitions

* `Machine.feed`, `Machine.closeInput`: what the program gets to read
* `Machine.ending?`, `Machine.isGone`: whether the program has ended, and its streams with it
* `Machine.waitUntil`: lets time pass until a condition is met
* `Machine.stop`: brings the program to its end
* `Machine.finishOn`: runs the program on a whole input
-/

namespace SfcProxy.Tool.Machine

/-! ## Streams -/

/-- Gives the program further input; without a reader it is lost. -/
def feed (bytes : List UInt8) (m : Machine) : Machine :=
  if m.holds (.outlet inputPipe) then
    { m with pipes := m.pipes.put inputPipe ((m.pipes.get? inputPipe).getD [] ++ bytes) }
  else m

/-- No more input comes. -/
def closeInput (m : Machine) : Machine :=
  { m with inputOpen := false }

/-- Nothing more can come from the output. -/
def outputEnded (m : Machine) : Bool :=
  !m.holds .output

/-- Nothing more can come from the errors. -/
def errorsEnded (m : Machine) : Bool :=
  !m.holds .errors

/-- How the program ended, if it did. -/
def ending? (m : Machine) : Option Ending :=
  (m.members.get? first).bind (·.ending)

/-- The program has ended, and nobody it started holds its streams. -/
def isGone (m : Machine) : Bool :=
  m.ending?.isSome && m.outputEnded && m.errorsEnded

/-! ## Waiting -/

/-- The time at which the next process wakes up. -/
def nextWake? (m : Machine) : Option Nat :=
  (m.members.filterMap fun (_, p) => p.wake).min?

/-- Lets processes work until a condition is met, the time is up, or nothing can happen any more.
At most `budget` times a process wakes up. -/
def waitFrom (met : Machine → Bool) (limit : Option Nat) (m : Machine) : (budget : Nat) → Machine
  | 0 => m
  | budget + 1 =>
    let m := m.settle
    if met m then m
    else
      match m.nextWake? with
      | some time =>
        if limit.all (time ≤ ·) then waitFrom met limit { m with now := time } budget
        else { m with now := limit.getD m.now }
      | none => { m with now := limit.getD m.now }

/-- How often processes wake up at most while someone waits. -/
def wakeLimit : Nat := 100000

/-- Lets processes work until a condition is met, the time is up, or nothing can happen any
more. -/
def waitUntil (met : Machine → Bool) (limit : Option Nat) (m : Machine) : Machine :=
  m.waitFrom met limit wakeLimit

/-- Lets processes work until the first line of the output has come. -/
def untilLine (m : Machine) : Machine :=
  m.waitUntil (fun m => m.output.contains 10 || m.outputEnded) none

/-! ## Ending -/

/-- How a program was brought to its end: what is left, and whether it had to be asked to end. -/
structure Stopped where
  machine : Machine
  asked : Bool

/-- Sends a signal to the program, unless it has ended. -/
def notify (signal : Nat) (m : Machine) : Machine :=
  if m.ending?.isSome then m else m.deliver first signal

/-- Brings the program to its end: its input is closed; if it is not gone within `timeout`
microseconds it is asked to end, and if it is not gone within as long again it is killed. -/
def stop (timeout : Nat) (m : Machine) : Stopped :=
  let waited := m.closeInput.waitUntil isGone (some (m.now + timeout))
  if waited.isGone then ⟨waited, false⟩
  -- Of a program that has ended nothing more is awaited.
  else if waited.ending?.isSome then ⟨waited, true⟩
  else
    let asked := (waited.notify Signal.terminate).waitUntil isGone (some (waited.now + timeout))
    if asked.ending?.isSome then ⟨asked, true⟩
    else ⟨(asked.notify Signal.kill).waitUntil isGone none, true⟩

/-- The code with which the program ended. -/
def code (m : Machine) : Int :=
  (m.ending?.map (·.code)).getD 0

/-- Runs the program on a whole input until it is gone. -/
def finishOn (input : List UInt8) (m : Machine) : Machine :=
  (m.feed input).closeInput.waitUntil isGone none

end SfcProxy.Tool.Machine
