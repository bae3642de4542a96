import SfcProxy.Session.Basic

/-!
# Messages from the server

A message from the server speaks of generated files. Their URIs are replaced by those of the
components wherever a member is known to hold URIs, and line numbers move down by the offset that
was recorded for the document of the message, or else for the request that it answers.

## Main definitions

* `relocate`: a value with component URIs in place of generated ones
* `translate`, `settle`: the steps of the adaptation, between which the other side may act
* `outgoing`: a message adapted to the other side
-/

namespace SfcProxy.Session

/-! ## URIs -/

/-- A walk that looks URIs up, and so may find and forget some. -/
abbrev Relocation := ExceptT Fault (StateM (UriMap × Log))

/-- The component URI of a generated URI; any other URI as it is. -/
def relocateUri (settings : Settings) (files : FileTree) (uri : Text) : Relocation Text := do
  let (map, log) ← get
  let answer := map.toComponent settings files uri
  set (answer.map, log ++ answer.log)
  match answer.outcome with
  | .error e => throw (.ofMap e)
  | .ok component => return component.getD uri

/-- Goes on with what is left of the calls when `opened` more of them are open, if there are as
many. -/
def deeper {α : Type} (calls opened : Nat) (walk : Nat → Relocation α) : Relocation α :=
  if opened ≤ calls then walk (calls - opened) else throw .nesting

/-- The members whose text is a URI. -/
def isUriField (name : Text) : Bool :=
  name == Text.ofString "uri" || name == Text.ofString "targetUri"

/-- The member whose own members are named by URIs. -/
def isUriKeyed (name : Text) : Bool :=
  name == Text.ofString "changes"

mutual

/-- A value with component URIs in place of generated ones. At most `calls` calls are open at a
time: one for each object and scalar, two for each array. -/
def relocate (settings : Settings) (files : FileTree) (calls : Nat) : Json → Relocation Json
  | .arr items => deeper calls 2 fun calls => .arr <$> relocateItems settings files calls items
  | .obj members => deeper calls 1 fun calls => .obj <$> relocateMembers settings files calls members
  | v => deeper calls 1 fun _ => pure v

/-- The items of an array with component URIs. -/
def relocateItems (settings : Settings) (files : FileTree) (calls : Nat) :
    List Json → Relocation (List Json)
  | [] => pure []
  | v :: rest => do
    let v ← relocate settings files calls v
    let rest ← relocateItems settings files calls rest
    return v :: rest

/-- The value of a member with component URIs. -/
def relocateMember (settings : Settings) (files : FileTree) (calls : Nat) (name : Text) :
    Json → Relocation Json
  | .str uri =>
    if isUriField name then .str <$> relocateUri settings files uri
    else deeper calls 1 fun _ => pure (.str uri)
  | .obj members => deeper calls 1 fun calls =>
    .obj <$> if isUriKeyed name then relocateKeyed settings files calls [] members
      else relocateMembers settings files calls members
  | .arr items => deeper calls 2 fun calls => .arr <$> relocateItems settings files calls items
  | v => deeper calls 1 fun _ => pure v

/-- The members of an object with component URIs. -/
def relocateMembers (settings : Settings) (files : FileTree) (calls : Nat) :
    List (Text × Json) → Relocation (List (Text × Json))
  | [] => pure []
  | (name, v) :: rest => do
    let v ← relocateMember settings files calls name v
    let rest ← relocateMembers settings files calls rest
    return (name, v) :: rest

/-- Members that are named by URIs, with component URIs; `done` holds those before them. Of two
members that come to the same name, the last value takes the first place. -/
def relocateKeyed (settings : Settings) (files : FileTree) (calls : Nat)
    (done : List (Text × Json)) : List (Text × Json) → Relocation (List (Text × Json))
  | [] => pure done
  | (uri, v) :: rest => do
    let uri ← relocateUri settings files uri
    let v ← relocate settings files calls v
    relocateKeyed settings files calls (Json.set uri v done) rest

end

/-! ## The adapted message -/

/-- A message without a method answers a request of the editor. -/
def isResponse (message : Members) : Bool :=
  !Json.has "method" message

/-- The member that holds what a message is about. -/
def subjectName (message : Members) : Text :=
  if isResponse message then "result" else "params"

/-- What a message is about. -/
def subject (message : Members) : Json :=
  (Json.get? (subjectName message) message).getD .null

/-- The URI of the document that a message is about, relocated. -/
def relocateKey (settings : Settings) (files : FileTree) (about : Json) :
    Relocation (Option Text) :=
  match about.member? "uri" with
  | some (.str uri) => some <$> relocateUri settings files uri
  | _ => pure none

/-- A message whose subject is relocated; a null subject is as good as none. -/
def relocateSubject (settings : Settings) (files : FileTree) (calls : Nat) (message : Members) :
    Relocation Members :=
  match subject message with
  | .null => pure message
  | about => do
    let about ← relocate settings files calls about
    return Json.set (subjectName message) about message

/-- The URI of the document that a message is about, and the message with component URIs. -/
def relocateMessage (settings : Settings) (files : FileTree) (calls : Nat) (message : Members) :
    Relocation (Option Text × Members) := do
  let key ← relocateKey settings files (subject message)
  let relocated ← relocateSubject settings files calls message
  return (key, relocated)

/-- The side whose request a message answers or is. -/
def requestOrigin (message : Members) : Origin :=
  if isResponse message then .editor else .server

/-- The message with component URIs, behind the URI of the document that it is about. -/
def translate (message : Members) (s : Session) :
    Session × Except Fault (Option Text × Members) :=
  let (relocated, uris, log) :=
    (relocateMessage s.settings s.files s.limits.relocating message).run.run (s.uris, [])
  ({ s with uris }.logged log, relocated)

/-- Looks the offset of a message up and moves its lines. -/
def settle (message : Members) (key : Option Text) (relocated : Members) (s : Session) :
    Session × Except Fault (Option Members) :=
  match s.ledger.lookup key (requestOrigin message) ((Json.get? "id" message).getD .null) with
  | .error e => (s, .error (.ledger e))
  | .ok (offset, ledger) =>
    let s := { s with ledger }
    -- A message equal to what came in passes as the bytes that came in.
    (s, (s.moveLines (offset.getD 0) relocated).map fun moved =>
      if moved = message then none else some moved)

/-- A message from the server, adapted to the editor; none if the message stays as it is. -/
def outgoing (message : Members) (s : Session) : Session × Except Fault (Option Members) :=
  match translate message s with
  | (s, .error e) => (s, .error e)
  | (s, .ok (key, relocated)) => settle message key relocated s

end SfcProxy.Session
