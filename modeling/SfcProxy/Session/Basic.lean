import SfcProxy.Component
import SfcProxy.Json.Lines
import SfcProxy.Ledger
import SfcProxy.Message
import SfcProxy.UriMap

/-!
# Sessions

What the proxy knows while an editor and a server talk through it, and the ways in which the
adaptation of a message can fail.

## Main definitions

* `Limits`: how deep the proxy can walk into a message
* `Session`: settings, offsets, URIs, files and records
* `Extractor`: how the block of a component is found
* `Session.Fault`: why a message cannot be adapted
* `Session.moveLines`: a message with its lines moved, if it is not too deep for that
-/

namespace SfcProxy

/-- How deep the proxy can walk into a message before the system runs out of calls. Writing has no
limit of its own: what goes out is no deeper than what came in. -/
structure Limits where
  /-- How deep a body may nest that is read. -/
  reading : Nat
  /-- How deep a message may nest whose lines move. -/
  shifting : Nat
  /-- How many calls may be open at a time while URIs are replaced. -/
  relocating : Nat
  deriving DecidableEq

/-- What a stack of a thousand calls leaves to the proxy. -/
def Limits.standard : Limits where
  reading := Json.nestingLimit
  shifting := 494
  relocating := 992

/-- The state that both directions of the proxy share, and the limits within which they work. -/
structure Session where
  settings : Settings
  ledger : Ledger
  uris : UriMap
  files : FileTree
  log : Log
  limits : Limits
  deriving DecidableEq

/-- How the block of a component text is found; a failure comes with its wording. -/
abbrev Extractor := Text → Except Text Extraction

/-- The extractor for a language. -/
def Extractor.ofLang (lang : Text) : Extractor := fun source =>
  match Component.extractText lang source with
  | .ok e => .ok e
  | .error e => .error e.message

namespace Session

/-- A session that has seen no message. -/
def start (settings : Settings) (files : FileTree) (limits : Limits := .standard) : Session :=
  ⟨settings, [], [], files, [], limits⟩

/-- The session with further records. -/
def logged (s : Session) (log : Log) : Session :=
  { s with log := s.log ++ log }

/-- Why a message cannot be adapted. -/
inductive Fault where
  | uri (error : FileUri.Error)
  | file (error : FileError)
  | ledger (error : Ledger.Error)
  | bound (error : Lru.BoundError)
  /-- A component on disk that is no UTF-8. -/
  | encoding (error : Utf8.DecodeError)
  /-- A message that nests too deep for a walk. -/
  | nesting
  | offset (error : Json.OffsetError)
  deriving DecidableEq

/-- A failure to map a URI as a failure to adapt. -/
def Fault.ofMap : UriMap.Error → Fault
  | .uri e => .uri e
  | .file e => .file e
  | .bound e => .bound e

/-- What a body is that the session receives. -/
def decode (s : Session) (body : List UInt8) : Message.Body :=
  Message.decode body s.limits.reading

/-- A message with its lines moved. An offset of zero moves nothing, at any depth. -/
def moveLines (s : Session) (offset : Int) (message : Members) : Except Fault Members :=
  if offset ≠ 0 ∧ s.limits.shifting < (Json.obj message).depth then .error .nesting
  else
    match (Json.obj message).shiftLinesWithin offset with
    | .error e => .error (.offset e)
    | .ok (.obj moved) => .ok moved
    | .ok _ => .ok message

end Session

end SfcProxy
