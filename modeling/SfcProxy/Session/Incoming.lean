import SfcProxy.Session.Basic

/-!
# Messages from the editor

A message about a component is redirected to its generated file: the URI is replaced, component
text is cut down to the text of its block, and line numbers move up by the offset of the block.
The block is written to the generated file, and the offset and the URI are remembered for the way
back.

The offset is that of the newest text of the component at hand: the whole-document changes of the
message, newest first, then its inline text, then the file on disk. The first text with a block
and without faults decides.

## Main definitions

* `consumeOptions`: takes the proxy's own options out of an `initialize` message
* `Target`, `target?`: the component that a message is about
* `pieceOf?`: the block of a text without faults
* `reference`: the block that decides the offset
* `redirect`: the message with its URI and texts replaced
* `prepare`, `enter`, `conclude`: the steps of the adaptation, between which the other side may act
* `incoming`: a message adapted to the other side
-/

namespace SfcProxy.Session

/-! ## Options -/

/-- The member of the initialization options that is meant for the proxy. -/
def ownSection : Text := "vleam"

/-- Takes the proxy's options out of a message and gives the settings they lead to; none if the
message is not `initialize` or holds no such options. -/
def consumeOptions? (settings : Settings) (message : Members) :
    Option (Members × Settings × Log) :=
  if Json.get? "method" message ≠ some (.str "initialize") then none
  else
    match Json.get? "params" message with
    | some (.obj params) =>
      match Json.get? "initializationOptions" params with
      | some (.obj options) =>
        match Json.get? ownSection options with
        | none => none
        | some own =>
          let rest := Json.erase ownSection options
          let kept := if rest.isEmpty then Json.null else .obj rest
          let params := Json.set "initializationOptions" kept params
          some (Json.set "params" (.obj params) message, settings.applyOptions own)
      | _ => none
    | _ => none

/-! ## Targets -/

/-- The component that a message is about: the parameters and the document of the message, the
URI and the path of the component, and the URI of its generated file. -/
structure Target where
  params : Members
  document : Members
  uri : Text
  path : Path
  generated : Text
  deriving DecidableEq

/-- The component that a message is about, if there is one below the source directory. -/
def target? (settings : Settings) (message : Members) : Except FileUri.Error (Option Target) :=
  match Json.get? "params" message with
  | some (.obj params) =>
    match Json.get? "textDocument" params with
    | some (.obj document) =>
      match Json.get? "uri" document with
      | some (.str uri) => do
        if !(← FileUri.isComponent uri) then return none
        match ← FileUri.toPath? uri, ← UriMap.toGenerated? settings uri with
        | some path, some generated => return some ⟨params, document, uri, path, generated⟩
        | _, _ => return none
      | _ => return none
    | _ => return none
  | _ => return none

/-! ## Texts and blocks -/

/-- The block of a text, if the text has one and no faults. -/
def pieceOf? (extractor : Extractor) (text : Text) : Option ScriptBlock :=
  match extractor text with
  | .ok ⟨block, []⟩ => block
  | _ => none

/-- The record of a text that cannot be extracted from. -/
def complaint (extractor : Extractor) (uri text : Text) : Log :=
  let because (reason : Text) : Log :=
    [⟨.warning, ("Errors parsing Vue SFC " : Text) ++ uri ++ (": " : Text) ++ reason⟩]
  match extractor text with
  | .error reason => because reason
  | .ok e => if e.faults.isEmpty then [] else because e.summary

/-- The text of a change, whether it is of the whole document or not. -/
def changeText? (change : Json) : Option Text :=
  (change.member? "text").bind Json.text?

/-- The text of a change of the whole document. -/
def wholeText? (change : Json) : Option Text :=
  if (change.member? "range").isSome then none else changeText? change

/-- The changes that a message carries. -/
def changes (params : Members) : List Json :=
  ((Json.get? "contentChanges" params).bind Json.items?).getD []

/-- The component text that a message carries beside its changes. -/
def inlineText? (document : Members) : Option Text :=
  (Json.get? "text" document).bind Json.text?

/-- The texts of the component that a message carries, newest first. -/
def candidates (target : Target) : List Text :=
  (changes target.params).reverse.filterMap wholeText? ++ (inlineText? target.document).toList

/-- Line breaks of all kinds become line feeds. -/
def unifyBreaks : List Char → List Char
  | '\r' :: '\n' :: rest => '\n' :: unifyBreaks rest
  | '\r' :: rest => '\n' :: unifyBreaks rest
  | c :: rest => c :: unifyBreaks rest
  | [] => []

/-- The record of a component that cannot be read. -/
def unreadable (path : Path) (e : FileError) : LogRecord :=
  ⟨.debug, ("PROXY: cannot read " : Text) ++ path.text ++ (": " : Text) ++ e.message⟩

/-- The component text on disk. A refusal of the system is recorded and counts as no text. -/
def diskText (files : FileTree) (path : Path) : Except Fault (Option Text × Log) :=
  match files.readFile path with
  | .ok bytes =>
    match Utf8.decode bytes with
    | .ok cs => .ok (some (Text.ofChars (unifyBreaks cs)), [])
    | .error e => .error (.encoding e)
  | .error e => if e.isSystem then .ok (none, [unreadable path e]) else .error (.file e)

/-- The block that decides the offset, the texts that were looked at, and records. -/
structure Reference where
  block : Option ScriptBlock
  seen : List Text
  log : Log
  deriving DecidableEq

/-- The records of texts, each text once; those in `seen` have been recorded before. -/
def complaints (extractor : Extractor) (uri : Text) (seen texts : List Text) : Log :=
  (texts.eraseDups.filter (!seen.contains ·)).flatMap (complaint extractor uri)

/-- The block of the newest text of a component that has one. The disk is read only if the message
carries no such text. -/
def reference (extractor : Extractor) (files : FileTree) (target : Target) :
    Except (Log × Fault) Reference :=
  let texts := candidates target
  let failed := texts.takeWhile fun text => (pieceOf? extractor text).isNone
  let log := complaints extractor target.uri [] failed
  match texts.findSome? (pieceOf? extractor) with
  | some block => .ok ⟨some block, failed ++ (texts.drop failed.length).take 1, log⟩
  | none =>
    match diskText files target.path with
    | .error e => .error (log, e)
    | .ok (none, more) => .ok ⟨none, failed, log ++ more⟩
    | .ok (some text, more) =>
      .ok ⟨pieceOf? extractor text, failed ++ [text],
        log ++ more ++ complaints extractor target.uri failed [text]⟩

/-! ## The generated file -/

/-- The record of a generated file that cannot be written. -/
def unwritten (path : Path) (e : FileError) : LogRecord :=
  ⟨.error, ("PROXY: failed to write generated file for " : Text) ++ path.text ++ (": " : Text)
    ++ e.message⟩

/-- Writes the text of a block to the generated file of a component. A refusal of the system is
recorded and does no further harm. -/
def materialize (settings : Settings) (files : FileTree) (path : Path) (text : List Char) :
    FileTree × Except Fault Log :=
  let refused (e : FileError) : Except Fault Log :=
    if e.isSystem then .ok [unwritten path e] else .error (.file e)
  match GeneratedFile.ensure settings files path with
  | (made, .error e) => (made, refused e)
  | (made, .ok none) => (made, .ok [])
  | (made, .ok (some generated)) =>
    match made.writeFile generated (Utf8.encodeChars text) with
    | .ok written => (written, .ok [])
    | .error e => (made, refused e)

/-! ## Members of the adapted message -/

/-- A change of the whole document to the text of a block. -/
def blockChange (block : ScriptBlock) : Json :=
  .obj [("text", .str (Text.ofChars block.sourceText))]

/-- The changes with the text of their own blocks; those without a block are dropped. -/
def keptChanges (extractor : Extractor) (params : Members) : List Json :=
  ((changes params).filterMap changeText?).filterMap fun text =>
    (pieceOf? extractor text).map blockChange

/-- The document with the generated URI and the text of its block. -/
def redirectDocument (extractor : Extractor) (target : Target) (block : ScriptBlock) : Members :=
  let document := Json.set "uri" (.str target.generated) target.document
  match inlineText? target.document with
  | none => document
  | some text =>
    let piece := (pieceOf? extractor text).getD block
    Json.set "text" (.str (Text.ofChars piece.sourceText)) document

/-- The message with the generated URI and block texts in place of component texts. -/
def redirect (extractor : Extractor) (target : Target) (block : ScriptBlock) (message : Members) :
    Members :=
  let document := redirectDocument extractor target block
  let params := Json.set "textDocument" (.obj document) target.params
  let params :=
    match Json.get? "contentChanges" params with
    | some (.arr _) => Json.set "contentChanges" (.arr (keptChanges extractor target.params)) params
    | _ => params
  Json.set "params" (.obj params) message

/-- The record of a change without a block. -/
def dropped (uri : Text) : LogRecord :=
  ⟨.debug, ("PROXY: dropping content change without a Gleam block for " : Text) ++ uri⟩

/-- The records of changes; the texts in `seen` have been recorded before. -/
def changeLog (extractor : Extractor) (uri : Text) (seen : List Text) : List Text → Log
  | [] => []
  | text :: rest =>
    complaints extractor uri seen [text]
      ++ (if (pieceOf? extractor text).isNone then [dropped uri] else [])
      ++ changeLog extractor uri (text :: seen) rest

/-- The records of replacing the texts of a message. -/
def redirectLog (extractor : Extractor) (target : Target) (seen : List Text) : Log :=
  let inline_ := (inlineText? target.document).toList
  complaints extractor target.uri seen inline_
    ++ changeLog extractor target.uri (inline_ ++ seen)
      ((changes target.params).filterMap changeText?)

/-- The record of a redirected message. -/
def redirected (message : Members) (target : Target) (offset : Int) : LogRecord :=
  ⟨.debug, ("PROXY: " : Text) ++ ((Json.get? "method" message).getD .null).plain ++ (" " : Text)
    ++ target.uri ++ (" -> " : Text) ++ target.generated ++ (" (offset " : Text)
    ++ Text.decimal offset ++ (")" : Text)⟩

/-! ## The adapted message -/

/-- The id under which the offset of a message is recorded; only requests have one. -/
def requestId (message : Members) : Json :=
  if Json.has "method" message then (Json.get? "id" message).getD .null else .null

/-- What becomes of a message: it stays as it is but for what was taken out of it, or it is
redirected. -/
inductive Plan where
  | keep (changed : Option Members)
  | redirect (target : Target) (block : ScriptBlock) (seen : List Text) (message : Members)
  deriving DecidableEq

/-- Finds out what becomes of a message, and writes the generated file of a component; `changed` is
the message if something was taken out of it. -/
def planFor (extractor : Extractor) (message : Members) (changed : Option Members) (s : Session) :
    Session × Except Fault Plan :=
  match target? s.settings message with
  | .error e => (s, .error (.uri e))
  | .ok none => (s, .ok (.keep changed))
  | .ok (some target) =>
    match reference extractor s.files target with
    | .error (log, e) => (s.logged log, .error e)
    | .ok ⟨none, _, log⟩ => (s.logged log, .ok (.keep changed))
    | .ok ⟨some block, seen, log⟩ =>
      let s := s.logged log
      match materialize s.settings s.files target.path block.sourceText with
      | (files, .error e) => ({ s with files }, .error e)
      | (files, .ok more) =>
        ({ s with files }.logged more, .ok (.redirect target block seen message))

/-- Takes the proxy's options out of a message and finds out what becomes of it. -/
def prepare (extractor : Extractor) (message : Members) (s : Session) :
    Session × Except Fault Plan :=
  match consumeOptions? s.settings message with
  -- A message that lost its options is forwarded changed, even if nothing else happens to it.
  | some (stripped, settings, log) =>
    planFor extractor stripped (some stripped) ({ s with settings }.logged log)
  | none => planFor extractor message none s

/-- Records the offset of a message that is redirected, in one step that the way back sees whole or
not at all. -/
def enter (plan : Plan) (s : Session) : Session × Except Fault Unit :=
  match plan with
  | .keep _ => (s, .ok ())
  | .redirect target block _ message =>
    match s.ledger.record s.settings.maxTracked block.lineOffset (some target.uri) .editor
        (requestId message) with
    | (ledger, some e) => ({ s with ledger }, .error (.ledger e))
    | (ledger, none) => ({ s with ledger }, .ok ())

/-- Remembers the URI of a component whose message is redirected, and gives the adapted message.
Both ways back are known before it goes out; they stay known if its lines cannot be moved. -/
def conclude (extractor : Extractor) (plan : Plan) (s : Session) :
    Session × Except Fault (Option Members) :=
  match plan with
  | .keep changed => (s, .ok changed)
  | .redirect target block seen message =>
    let offset := block.lineOffset
    let entry := s.uris.register s.settings target.generated target.uri
    let s := { s with uris := entry.map }.logged entry.log
    match entry.outcome with
    | .error e => (s, .error (.ofMap e))
    | .ok () =>
      let s := s.logged
        (redirectLog extractor target seen ++ [redirected message target offset])
      (s, (s.moveLines (-offset) (redirect extractor target block message)).map some)

/-- A message from the editor, adapted to the server; none if the message stays as it is. -/
def incoming (extractor : Extractor) (message : Members) (s : Session) :
    Session × Except Fault (Option Members) :=
  match prepare extractor message s with
  | (s, .error e) => (s, .error e)
  | (s, .ok plan) =>
    match enter plan s with
    | (s, .error e) => (s, .error e)
    | (s, .ok ()) => conclude extractor plan s

end SfcProxy.Session
