import SfcProxy.Session.Incoming
import SfcProxy.Session.Outgoing

/-!
# Transforms of message bodies

Each direction of the proxy turns message bodies into message bodies. A body that is no message,
or a message that stays as it is or cannot be adapted, passes as the very same bytes. What is
beyond the limits of the reader or the writer is an error.

## Main definitions

* `Session.fromEditor`, `Session.fromServer`: the two transforms
-/

namespace SfcProxy.Session

/-- Why a body cannot pass. -/
inductive TransformError where
  | read (error : Json.ReadError)
  | write (error : Json.WriteError)
  deriving DecidableEq

/-- The wording of an error. -/
def TransformError.message : TransformError → Text
  | read error => error.message
  | write error => error.message

/-- Passes a body through the adaptation of messages; `failure` is the record of a message that
cannot be adapted. -/
def pass (adapt : Members → Session → Session × Except Fault (Option Members))
    (failure : Members → LogRecord) (body : List UInt8) (s : Session) :
    Session × Except TransformError (List UInt8) :=
  match s.decode body with
  | .other => (s, .ok body)
  | .undecodable reason => (s.logged [Message.undecodableRecord reason], .ok body)
  | .beyondLimits e => (s, .error (.read e))
  | .object message =>
    match adapt message s with
    | (s, .error _) => (s.logged [failure message], .ok body)
    | (s, .ok none) => (s, .ok body)
    | (s, .ok (some message)) =>
      match Message.encode message with
      | .ok body => (s, .ok body)
      | .error e => (s, .error (.write e))

/-- The record of an editor's message that cannot be adapted. -/
def incomingFailure (message : Members) : LogRecord :=
  ⟨.error, ("PROXY: incoming transform failed for " : Text)
    ++ ((Json.get? "method" message).getD .null).literal ++ (", forwarding unchanged" : Text)⟩

/-- The record of a server's message that cannot be adapted. -/
def outgoingFailure (message : Members) : LogRecord :=
  ⟨.error, ("PROXY: outgoing transform failed for id=" : Text)
    ++ ((Json.get? "id" message).getD .null).literal ++ (", forwarding unchanged" : Text)⟩

/-- Passes a body from the editor to the server. -/
def fromEditor (extractor : Extractor) (body : List UInt8) (s : Session) :
    Session × Except TransformError (List UInt8) :=
  pass (incoming extractor) incomingFailure body s

/-- Passes a body from the server to the editor. -/
def fromServer (body : List UInt8) (s : Session) :
    Session × Except TransformError (List UInt8) :=
  pass outgoing outgoingFailure body s

end SfcProxy.Session
