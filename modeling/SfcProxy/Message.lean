import SfcProxy.Json.Reader
import SfcProxy.Json.Writer
import SfcProxy.Log
import SfcProxy.Text.Utf8

/-!
# Message bodies

A body is a message if it is UTF-8 text of a JSON object. Any other body passes the proxy as it
is: other JSON values without a word, undecodable bytes with a warning. Only text beyond the
limits of the reader is an error.

## Main definitions

* `Message.decode`: what a body is
* `Message.encode`: the body of a message
-/

namespace SfcProxy.Message

/-- What a body is. -/
inductive Body where
  | object (members : Members)
  /-- A JSON value other than an object. -/
  | other
  | undecodable (reason : Text)
  /-- Text beyond a limit of the reader. -/
  | beyondLimits (error : Json.ReadError)
  deriving DecidableEq

/-- What a body is; arrays and objects in it nest at most `limit` deep. -/
def decode (body : List UInt8) (limit : Nat := Json.nestingLimit) : Body :=
  match Utf8.decode body with
  | .error e => .undecodable e.message
  | .ok source =>
    match Json.read source limit with
    | .ok (.obj members) => .object members
    | .ok _ => .other
    | .error (.malformed fault line column offset) =>
      .undecodable (Json.ReadError.malformed fault line column offset).message
    | .error e => .beyondLimits e

/-- The record of an undecodable body. -/
def undecodableRecord (reason : Text) : LogRecord :=
  ⟨.warning, ("PROXY: undecodable message body: " : Text) ++ reason⟩

/-- The body of a message. -/
def encode (members : Members) : Except Json.WriteError (List UInt8) :=
  (Json.obj members).encode

end SfcProxy.Message
