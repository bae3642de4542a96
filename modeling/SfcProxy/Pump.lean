import SfcProxy.Frame
import SfcProxy.Log

/-!
# Pumps

A pump moves messages from one stream to another, one at a time, through a transform with a state
of its own. It stops at the end of the stream and at a breach of the framing rules, both of which
it records; any other error leaves it. As long as the stream is open, a pump that has moved all
whole messages waits for more.

## Main definitions

* `Pump.Transform`: a transform of bodies with a state
* `Pump.Stop`: why a pump stops
* `Pump.run`: the pump on the bytes at hand
-/

namespace SfcProxy.Pump

/-- A transform of message bodies with a state, which may fail. -/
abbrev Transform (σ ε : Type) := List UInt8 → σ → σ × Except ε (List UInt8)

/-- Why a pump fails. -/
inductive Failure (ε : Type) where
  | frame (error : Frame.Error)
  | transform (error : ε)
  deriving DecidableEq

/-- Why a pump stops. -/
inductive Stop (ε : Type) where
  /-- The stream is at its end. -/
  | ended
  /-- The stream breaks the framing rules. -/
  | breached (error : Frame.Error)
  | failed (failure : Failure ε)
  deriving DecidableEq

variable {σ ε : Type}

/-- What a pump records when it stops. -/
def Stop.log (name : Text) : Stop ε → Log
  | ended => [⟨.info, ("PROXY: " : Text) ++ name ++ (": end of stream" : Text)⟩]
  | breached e =>
    [⟨.error, ("PROXY: " : Text) ++ name ++ (": " : Text) ++ e.message
      ++ ("; closing stream" : Text)⟩]
  | failed _ => []

/-- The failure of a pump, if it stops on one. -/
def Stop.failure? : Stop ε → Option (Failure ε)
  | failed failure => some failure
  | _ => none

/-- How a pump stops on an error of the stream. -/
def Stop.ofError (e : Frame.Error) : Stop ε :=
  if e.isBreach then .breached e else .failed (.frame e)

/-- What a pump has done: the state of its transform, its output, the bytes it has not moved, and
why it stopped if it did. -/
structure Outcome (σ ε : Type) where
  state : σ
  output : List UInt8
  rest : List UInt8
  stop : Option (Stop ε)
  deriving DecidableEq

/-- Moves at most `budget` messages. -/
def runFrom (closed : Bool) (transform : Transform σ ε) :
    (budget : Nat) → List UInt8 → σ → Outcome σ ε
  | 0, stream, state => ⟨state, [], stream, none⟩
  | budget + 1, stream, state =>
    match Frame.read closed stream with
    | .pending => ⟨state, [], stream, none⟩
    | .ended => ⟨state, [], [], some .ended⟩
    | .failed e => ⟨state, [], stream, some (.ofError e)⟩
    | .message body rest =>
      match transform body state with
      | (state, .error e) => ⟨state, [], rest, some (.failed (.transform e))⟩
      | (state, .ok body) =>
        let outcome := runFrom closed transform budget rest state
        { outcome with output := Frame.write body ++ outcome.output }

/-- Moves all messages at hand. `closed` tells whether the stream ends with the bytes at hand. -/
def run (closed : Bool) (transform : Transform σ ε) (stream : List UInt8) (state : σ) :
    Outcome σ ε :=
  runFrom closed transform (stream.length + 1) stream state

end SfcProxy.Pump
