import SfcProxy.Proofs.Session.Depth
import SfcProxy.Proofs.Session.Relocation
import SfcProxy.Proofs.Utf8
import SfcProxy.Session.Transform

/-!
# Requests and responses under any interleaving

The two directions of the proxy run at once and share a session. Each takes one message at a time
through the steps of its adaptation, and between any two steps the other direction may act, files
may be edited, and bodies that are no messages may pass. What is recorded for a request of the
editor is recorded in one step, before the request goes out, and by no other message; so whenever
its response comes, the lines of the response move by the offset by which those of the request
moved the other way.

## Main definitions

* `Traffic`: the session, the messages on their way, and what has been sent on
* `Traffic.step?`, `Traffic.run`: one move of either direction, and a sequence of moves; there is
  none if an adaptation fails, an entry of the ledger is dropped, or an id is used again
* `Traffic.Accounted`: the ledger holds the offsets of the requests that were sent, and of no others
* `Planning`: how a message of the editor is planned for
* `Outbound.Forwarded`, `Inbound.Returned`: how lines move on the two ways

## Main results

* `Traffic.fromEditor_of_run`, `Traffic.fromServer_of_run`: the moves of one direction, made
  without a break, are its transform
* `Traffic.Accounted.step`, `Traffic.Accounted.run`: every move keeps the account
* `Traffic.response_offset`: a response moves back by the offset of its request
-/

namespace SfcProxy.Session

/-! ## Requests and responses -/

/-- The id of an editor's message, if it is a request. -/
def requestKey? (message : Members) : Option RequestId :=
  (RequestId.ofJson (requestId message)).toOption.join

/-- The id of the request that a server's message answers, if it is a response. -/
def answerKey? (message : Members) : Option RequestId :=
  if isResponse message then
    (RequestId.ofJson ((Json.get? "id" message).getD .null)).toOption.join
  else none

/-- A message is what is left of another without the proxy's options. -/
def Stripped (message stripped : Members) : Prop :=
  ∃ settings settings' log, consumeOptions? settings message = some (stripped, settings', log)

namespace Plan

/-- The offset that is recorded for a message, if there is one. -/
def recorded? : Plan → Option Int
  | keep _ => none
  | redirect _ block _ _ => some block.lineOffset

/-- The offset by which the lines of a message move up. -/
def offset (plan : Plan) : Int :=
  plan.recorded?.getD 0

/-- The entries that the ledger drops when the offset of a message is recorded. -/
def evicted (plan : Plan) (s : Session) : Ledger :=
  match plan with
  | keep _ => []
  | redirect target block _ message =>
    Lru.evicted s.settings.maxTracked
      (s.ledger.entered block.lineOffset (some target.uri) .editor (requestKey? message))

/-- What is kept or redirected is the message that came in, or that message without the proxy's
options. -/
def Agrees (message : Members) : Plan → Prop
  | keep none => True
  | keep (some changed) => Stripped message changed
  | redirect _ _ _ redirected => redirected = message ∨ Stripped message redirected

end Plan

/-! ## Messages on their way -/

/-- A message of the editor on its way: the body, the message in it, what becomes of it, and
whether its offset is recorded yet. -/
structure Outbound where
  body : List UInt8
  message : Members
  plan : Plan
  entered : Bool
  deriving DecidableEq

/-- A message of the server on its way: the body, the message in it, the URI of the document that
it is about, and the message with component URIs. -/
structure Inbound where
  body : List UInt8
  message : Members
  key : Option Text
  relocated : Members
  deriving DecidableEq

/-- A message that has been sent on, with the body that went out. -/
inductive Event where
  | sent (flight : Outbound) (out : List UInt8)
  | answered (flight : Inbound) (out : List UInt8)
  deriving DecidableEq

/-- The message in the body that came in. -/
def Event.message : Event → Members
  | sent flight _ => flight.message
  | answered flight _ => flight.message

/-- The body that went out. -/
def Event.out : Event → List UInt8
  | sent _ out => out
  | answered _ out => out

/-- The id of the request that was sent, if it was one. -/
def Event.request? : Event → Option RequestId
  | sent flight _ => requestKey? flight.message
  | answered _ _ => none

/-- The id of the request that was answered, if the message was a response. -/
def Event.answer? : Event → Option RequestId
  | sent _ _ => none
  | answered flight _ => answerKey? flight.message

/-- The offset by which the lines of a message that was sent moved up. -/
def Event.offset : Event → Int
  | sent flight _ => flight.plan.offset
  | answered _ _ => 0

/-- The session, the message on its way in each direction, and what has been sent on, newest
first. -/
structure Traffic where
  session : Session
  outbound : Option Outbound
  inbound : Option Inbound
  events : List Event
  deriving DecidableEq

/-- A move of the editor's direction, of the server's direction, or of the world around. -/
inductive Move where
  /-- A body comes from the editor and is found out about. -/
  | read (body : List UInt8)
  /-- The offset of the editor's message is recorded. -/
  | enter
  /-- The editor's message goes out to the server. -/
  | send
  /-- A body comes from the server and gets component URIs. -/
  | receive (body : List UInt8)
  /-- The offset of the server's message is looked up, and the message goes out to the editor. -/
  | answer
  /-- Anything but the ledger and the limits changes. -/
  | drift (others : Session)

namespace Traffic

/-- The message in a body that a session receives. -/
def message? (s : Session) (body : List UInt8) : Option Members :=
  match s.decode body with
  | .object message => some message
  | _ => none

/-- The body that goes out for a message that stays or is adapted. -/
def outgoingBody (body : List UInt8) : Option Members → Except Json.WriteError (List UInt8)
  | none => .ok body
  | some adapted => Message.encode adapted

/-- A request with the same id was sent before. -/
def hasAsked (t : Traffic) (message : Members) : Bool :=
  (requestKey? message).any fun id => t.events.any fun event => event.request? = some id

/-- One move, if it can be made without a failure, without dropping an entry of the ledger and
without using the id of a request again. -/
def step? (extractor : Extractor) (t : Traffic) : Move → Option Traffic
  | .read body =>
    (message? t.session body).bind fun message =>
      if t.outbound.isSome || t.hasAsked message then none
      else
        let prepared := prepare extractor message t.session
        prepared.2.toOption.map fun plan =>
          { t with session := prepared.1, outbound := some ⟨body, message, plan, false⟩ }
  | .enter =>
    t.outbound.bind fun flight =>
      if flight.entered || flight.plan.evicted t.session ≠ [] then none
      else
        let done := enter flight.plan t.session
        done.2.toOption.map fun _ =>
          { t with session := done.1, outbound := some { flight with entered := true } }
  | .send =>
    t.outbound.bind fun flight =>
      if !flight.entered then none
      else
        let concluded := conclude extractor flight.plan t.session
        concluded.2.toOption.bind fun adapted =>
          (outgoingBody flight.body adapted).toOption.map fun out =>
            { t with
              session := concluded.1, outbound := none, events := .sent flight out :: t.events }
  | .receive body =>
    (message? t.session body).bind fun message =>
      if t.inbound.isSome then none
      else
        let translated := translate message t.session
        translated.2.toOption.map fun (key, relocated) =>
          { t with session := translated.1, inbound := some ⟨body, message, key, relocated⟩ }
  | .answer =>
    t.inbound.bind fun flight =>
      let settled := settle flight.message flight.key flight.relocated t.session
      settled.2.toOption.bind fun adapted =>
        (outgoingBody flight.body adapted).toOption.map fun out =>
          { t with
            session := settled.1, inbound := none, events := .answered flight out :: t.events }
  | .drift others =>
    let session := { others with ledger := t.session.ledger, limits := t.session.limits }
    some { t with session }

/-- A sequence of moves. -/
def run (extractor : Extractor) : List Move → Traffic → Option Traffic
  | [], t => some t
  | move :: moves, t => (t.step? extractor move).bind (run extractor moves)

/-- Nothing is on its way yet. -/
def start (settings : Settings) (files : FileTree) (limits : Limits := .standard) : Traffic :=
  ⟨.start settings files limits, none, none, []⟩

end Traffic

/-! ## What a move does -/

namespace Traffic

variable {extractor : Extractor} {t t' : Traffic}

theorem toOption_eq_some {ε α : Type} {x : Except ε α} {a : α} (h : x.toOption = some a) :
    x = .ok a := by
  cases x with
  | error e => cases h
  | ok b => exact congrArg _ (Option.some.inj h)

theorem decode_of_message? {s : Session} {body : List UInt8} {message : Members}
    (h : message? s body = some message) : s.decode body = .object message := by
  unfold message? at h
  split at h
  · rename_i found hdecode
    rw [hdecode, Option.some.inj h]
  · cases h

theorem step?_read {body : List UInt8} (h : t.step? extractor (.read body) = some t') :
    ∃ message plan, t.session.decode body = .object message ∧ t.outbound = none ∧
      t.hasAsked message = false ∧ (prepare extractor message t.session).2 = .ok plan ∧
      t' = { t with
        session := (prepare extractor message t.session).1
        outbound := some ⟨body, message, plan, false⟩ } := by
  obtain ⟨message, hmessage, h⟩ := Option.bind_eq_some_iff.mp h
  split at h
  · cases h
  rename_i hfree
  obtain ⟨plan, hplan, rfl⟩ := Option.map_eq_some_iff.mp h
  simp only [Bool.or_eq_true, not_or, Bool.not_eq_true, Option.isSome_eq_false_iff,
    Option.isNone_iff_eq_none] at hfree
  exact ⟨message, plan, decode_of_message? hmessage, hfree.1, hfree.2, toOption_eq_some hplan, rfl⟩

theorem step?_enter (h : t.step? extractor .enter = some t') :
    ∃ flight, t.outbound = some flight ∧ flight.entered = false ∧
      flight.plan.evicted t.session = [] ∧ (enter flight.plan t.session).2 = .ok () ∧
      t' = { t with
        session := (enter flight.plan t.session).1
        outbound := some { flight with entered := true } } := by
  obtain ⟨flight, hflight, h⟩ := Option.bind_eq_some_iff.mp h
  split at h
  · cases h
  rename_i hfree
  obtain ⟨⟨⟩, hdone, rfl⟩ := Option.map_eq_some_iff.mp h
  simp only [Bool.or_eq_true, not_or, Bool.not_eq_true, decide_eq_true_eq, ne_eq,
    not_not] at hfree
  exact ⟨flight, hflight, hfree.1, hfree.2, toOption_eq_some hdone, rfl⟩

theorem step?_send (h : t.step? extractor .send = some t') :
    ∃ flight adapted out, t.outbound = some flight ∧ flight.entered = true ∧
      (conclude extractor flight.plan t.session).2 = .ok adapted ∧
      outgoingBody flight.body adapted = .ok out ∧
      t' = { t with
        session := (conclude extractor flight.plan t.session).1
        outbound := none
        events := .sent flight out :: t.events } := by
  obtain ⟨flight, hflight, h⟩ := Option.bind_eq_some_iff.mp h
  split at h
  · cases h
  rename_i hentered
  obtain ⟨adapted, hadapted, h⟩ := Option.bind_eq_some_iff.mp h
  obtain ⟨out, hout, rfl⟩ := Option.map_eq_some_iff.mp h
  exact ⟨flight, adapted, out, hflight, by simpa using hentered, toOption_eq_some hadapted,
    toOption_eq_some hout, rfl⟩

theorem step?_receive {body : List UInt8} (h : t.step? extractor (.receive body) = some t') :
    ∃ message key relocated, t.session.decode body = .object message ∧
      (translate message t.session).2 = .ok (key, relocated) ∧
      t' = { t with
        session := (translate message t.session).1
        inbound := some ⟨body, message, key, relocated⟩ } := by
  obtain ⟨message, hmessage, h⟩ := Option.bind_eq_some_iff.mp h
  split at h
  · cases h
  obtain ⟨⟨key, relocated⟩, htranslated, rfl⟩ := Option.map_eq_some_iff.mp h
  exact ⟨message, key, relocated, decode_of_message? hmessage, toOption_eq_some htranslated, rfl⟩

theorem step?_answer (h : t.step? extractor .answer = some t') :
    ∃ flight adapted out, t.inbound = some flight ∧
      (settle flight.message flight.key flight.relocated t.session).2 = .ok adapted ∧
      outgoingBody flight.body adapted = .ok out ∧
      t' = { t with
        session := (settle flight.message flight.key flight.relocated t.session).1
        inbound := none
        events := .answered flight out :: t.events } := by
  obtain ⟨flight, hflight, h⟩ := Option.bind_eq_some_iff.mp h
  obtain ⟨adapted, hadapted, h⟩ := Option.bind_eq_some_iff.mp h
  obtain ⟨out, hout, rfl⟩ := Option.map_eq_some_iff.mp h
  exact ⟨flight, adapted, out, hflight, toOption_eq_some hadapted, toOption_eq_some hout, rfl⟩

theorem run_cons {move : Move} {moves : List Move} (h : run extractor (move :: moves) t = some t') :
    ∃ next, t.step? extractor move = some next ∧ run extractor moves next = some t' :=
  Option.bind_eq_some_iff.mp h

theorem pass_of_adapted {adapt : Members → Session → Session × Except Fault (Option Members)}
    {failure : Members → LogRecord} {body out : List UInt8} {s s' : Session} {message : Members}
    {adapted : Option Members} (hdecode : s.decode body = .object message)
    (hadapt : adapt message s = (s', .ok adapted)) (hout : outgoingBody body adapted = .ok out) :
    pass adapt failure body s = (s', .ok out) := by
  simp only [pass, hdecode, hadapt]
  cases adapted with
  | none =>
    obtain rfl := Except.ok.inj hout
    rfl
  | some adapted =>
    rw [outgoingBody] at hout
    simp only [hout]

/-- The moves of the editor's direction, one right after the other, are its transform. -/
theorem fromEditor_of_run {body : List UInt8}
    (h : run extractor [.read body, .enter, .send] t = some t') :
    ∃ flight out, t'.events = .sent flight out :: t.events ∧
      fromEditor extractor body t.session = (t'.session, .ok out) := by
  obtain ⟨t₁, h₁, h⟩ := run_cons h
  obtain ⟨t₂, h₂, h⟩ := run_cons h
  obtain ⟨t₃, h₃, h⟩ := run_cons h
  obtain rfl := Option.some.inj h
  obtain ⟨message, plan, hdecode, -, -, hplan, rfl⟩ := step?_read h₁
  obtain ⟨_, ⟨⟩, -, -, hdone, rfl⟩ := step?_enter h₂
  obtain ⟨_, adapted, out, ⟨⟩, -, hadapted, hout, rfl⟩ := step?_send h₃
  refine ⟨_, out, rfl, pass_of_adapted hdecode ?_ hout⟩
  unfold incoming
  rcases hprepare : prepare extractor message t.session with ⟨s₁, result⟩
  rw [hprepare] at hplan hdone hadapted
  obtain rfl : result = .ok plan := hplan
  dsimp only at hdone hadapted ⊢
  rcases henter : Session.enter plan s₁ with ⟨s₂, entered⟩
  rw [henter] at hdone hadapted
  obtain rfl : entered = .ok () := hdone
  exact Prod.ext rfl hadapted

/-- The moves of the server's direction, one right after the other, are its transform. -/
theorem fromServer_of_run {body : List UInt8}
    (h : run extractor [.receive body, .answer] t = some t') :
    ∃ flight out, t'.events = .answered flight out :: t.events ∧
      fromServer body t.session = (t'.session, .ok out) := by
  obtain ⟨t₁, h₁, h⟩ := run_cons h
  obtain ⟨t₂, h₂, h⟩ := run_cons h
  obtain rfl := Option.some.inj h
  obtain ⟨message, key, relocated, hdecode, htranslated, rfl⟩ := step?_receive h₁
  obtain ⟨_, adapted, out, ⟨⟩, hadapted, hout, rfl⟩ := step?_answer h₂
  refine ⟨_, out, rfl, pass_of_adapted hdecode ?_ hout⟩
  unfold outgoing
  rcases htranslate : translate message t.session with ⟨s₁, result⟩
  rw [htranslate] at htranslated hadapted
  obtain rfl : result = .ok (key, relocated) := htranslated
  exact Prod.ext rfl hadapted

end Traffic

/-! ## The steps of the two adaptations -/

theorem requestKey?_set_params (v : Json) (message : Members) :
    requestKey? (Json.set "params" v message) = requestKey? message := by
  have hget : ∀ name : Text, name ≠ "params" →
      Json.get? name (Json.set "params" v message) = Json.get? name message := by
    intro name hname
    rw [Json.get?_set, if_neg hname]
  have hhas : Json.has "method" (Json.set "params" v message) = Json.has "method" message := by
    rw [Json.has, hget _ (by decide), Json.has]
  rw [requestKey?, requestId, hhas, hget _ (by decide), requestKey?, requestId]

theorem Stripped.requestKey?_eq {message stripped : Members} (h : Stripped message stripped) :
    requestKey? stripped = requestKey? message := by
  obtain ⟨settings, settings', log, h⟩ := h
  unfold consumeOptions? at h
  split at h
  · cases h
  split at h
  · split at h
    · split at h
      · cases h
      · obtain ⟨rfl, -⟩ := Prod.mk.inj (Option.some.inj h)
        exact requestKey?_set_params _ _
    · cases h
  · cases h

/-- How a message is planned for: its URI may be no path, or of no component; the component may not
be readable, or have no block; and the generated file may not be writable. -/
inductive Planning (extractor : Extractor) (message : Members) (changed : Option Members)
    (s : Session) : Session × Except Fault Plan → Prop
  | misnamed {e : FileUri.Error} (target_eq : target? s.settings message = .error e) :
      Planning extractor message changed s (s, .error (.uri e))
  | foreign (target_eq : target? s.settings message = .ok none) :
      Planning extractor message changed s (s, .ok (.keep changed))
  | unread {target : Target} {log : Log} {e : Fault}
      (target_eq : target? s.settings message = .ok (some target))
      (found_eq : reference extractor s.files target = .error (log, e)) :
      Planning extractor message changed s (s.logged log, .error e)
  | blockless {target : Target} {seen : List Text} {log : Log}
      (target_eq : target? s.settings message = .ok (some target))
      (found_eq : reference extractor s.files target = .ok ⟨none, seen, log⟩) :
      Planning extractor message changed s (s.logged log, .ok (.keep changed))
  | unwritten {target : Target} {block : ScriptBlock} {seen : List Text} {log : Log}
      {files : FileTree} {e : Fault} (target_eq : target? s.settings message = .ok (some target))
      (found_eq : reference extractor s.files target = .ok ⟨some block, seen, log⟩)
      (written_eq : materialize s.settings s.files target.path block.sourceText
        = (files, .error e)) :
      Planning extractor message changed s ({ s.logged log with files }, .error e)
  | redirected {target : Target} {block : ScriptBlock} {seen : List Text} {log more : Log}
      {files : FileTree} (target_eq : target? s.settings message = .ok (some target))
      (found_eq : reference extractor s.files target = .ok ⟨some block, seen, log⟩)
      (written_eq : materialize s.settings s.files target.path block.sourceText
        = (files, .ok more)) :
      Planning extractor message changed s
        ({ s.logged log with files }.logged more, .ok (.redirect target block seen message))

theorem planning_planFor (extractor : Extractor) (message : Members) (changed : Option Members)
    (s : Session) : Planning extractor message changed s (planFor extractor message changed s) := by
  unfold planFor
  split
  · rename_i e htarget
    exact .misnamed htarget
  · rename_i htarget
    exact .foreign htarget
  · rename_i target htarget
    split
    · rename_i log e hfound
      exact .unread htarget hfound
    · rename_i seen log hfound
      exact .blockless htarget hfound
    · rename_i block seen log hfound
      dsimp only
      split
      · rename_i files e hwritten
        exact .unwritten htarget hfound hwritten
      · rename_i files more hwritten
        exact .redirected htarget hfound hwritten

theorem planFor_spec (extractor : Extractor) (message : Members) (changed : Option Members)
    (s : Session) : (planFor extractor message changed s).1.ledger = s.ledger ∧
      (planFor extractor message changed s).1.limits = s.limits ∧
      ∀ plan, (planFor extractor message changed s).2 = .ok plan →
        plan = .keep changed ∨ ∃ target block seen, plan = .redirect target block seen message := by
  have hplanning := planning_planFor extractor message changed s
  generalize planFor extractor message changed s = result at hplanning ⊢
  cases hplanning with
  | misnamed | unread | unwritten => exact ⟨rfl, rfl, nofun⟩
  | foreign | blockless => exact ⟨rfl, rfl, by rintro _ ⟨⟩; exact .inl rfl⟩
  | redirected => exact ⟨rfl, rfl, by rintro _ ⟨⟩; exact .inr ⟨_, _, _, rfl⟩⟩

/-- Finding out about a message leaves the ledger alone and the message what it is. -/
theorem prepare_spec (extractor : Extractor) (message : Members) (s : Session) :
    (prepare extractor message s).1.ledger = s.ledger ∧
      (prepare extractor message s).1.limits = s.limits ∧
      ∀ plan, (prepare extractor message s).2 = .ok plan → plan.Agrees message := by
  unfold prepare
  split
  · rename_i stripped settings log hoptions
    have hstripped : Stripped message stripped := ⟨_, _, _, hoptions⟩
    obtain ⟨hledger, hlimits, hplan⟩ :=
      planFor_spec extractor stripped (some stripped) ({ s with settings }.logged log)
    refine ⟨hledger, hlimits, fun plan hok => ?_⟩
    rcases hplan plan hok with rfl | ⟨target, block, seen, rfl⟩
    · exact hstripped
    · exact .inr hstripped
  · obtain ⟨hledger, hlimits, hplan⟩ := planFor_spec extractor message none s
    refine ⟨hledger, hlimits, fun plan hok => ?_⟩
    rcases hplan plan hok with rfl | ⟨target, block, seen, rfl⟩
    · trivial
    · exact .inl rfl

theorem enter_limits (plan : Plan) (s : Session) : (enter plan s).1.limits = s.limits := by
  unfold enter
  split
  · rfl
  · split <;> rfl

/-- Recording an offset changes the ledger under the id of the request, and under no other id. -/
theorem enter_spec {plan : Plan} {message : Members} {s : Session} (hplan : plan.Agrees message)
    (hok : (enter plan s).2 = .ok ()) (hevicted : plan.evicted s = []) :
    0 ≤ plan.offset ∧ ∀ id, (enter plan s).1.ledger.get? (.request .editor id)
      = if requestKey? message = some id then
          plan.recorded?.or (s.ledger.get? (.request .editor id))
        else s.ledger.get? (.request .editor id) := by
  cases plan with
  | keep changed => simp [Plan.offset, Plan.recorded?, enter]
  | redirect target block seen redirected =>
    unfold enter at hok ⊢
    dsimp only at hok ⊢
    split at hok
    · cases hok
    · rename_i ledger hrecord
      obtain ⟨hoffset, id?, hid, rfl⟩ := Ledger.record_eq hrecord
      have hsame : requestKey? redirected = requestKey? message := by
        rcases hplan with rfl | hstripped
        · rfl
        · exact hstripped.requestKey?_eq
      have hkey : requestKey? message = id? := by
        rw [← hsame, requestKey?, hid]
        rfl
      rw [Plan.evicted, hsame, hkey] at hevicted
      refine ⟨hoffset, fun id => ?_⟩
      dsimp only
      rw [Lru.trim_eq_self hevicted, Ledger.get?_entered_request, hkey]
      rfl

/-- Concluding a message that is redirected changes the map of URIs alone, and its lines move up if
the map keeps its bound and they can be moved. -/
theorem conclude_spec (extractor : Extractor) (target : Target) (block : ScriptBlock)
    (seen : List Text) (message : Members) (s : Session) :
    (∃ log, (conclude extractor (.redirect target block seen message) s).1
        = { s with uris := (s.uris.register s.settings target.generated target.uri).map, log }) ∧
      (conclude extractor (.redirect target block seen message) s).2
        = match (s.uris.register s.settings target.generated target.uri).outcome with
          | .error e => .error (.ofMap e)
          | .ok () => (s.moveLines (-block.lineOffset)
              (redirect extractor target block message)).map some := by
  unfold conclude
  dsimp only
  cases hregister : (s.uris.register s.settings target.generated target.uri).outcome with
  | error e => exact ⟨⟨_, rfl⟩, rfl⟩
  | ok _ => exact ⟨⟨_, rfl⟩, rfl⟩

theorem conclude_ledger (extractor : Extractor) (plan : Plan) (s : Session) :
    (conclude extractor plan s).1.ledger = s.ledger := by
  cases plan with
  | keep changed => rfl
  | redirect target block seen message =>
    obtain ⟨⟨log, hconcluded⟩, -⟩ := conclude_spec extractor target block seen message s
    rw [hconcluded]

theorem translate_ledger (message : Members) (s : Session) :
    (translate message s).1.ledger = s.ledger := rfl

theorem conclude_limits (extractor : Extractor) (plan : Plan) (s : Session) :
    (conclude extractor plan s).1.limits = s.limits := by
  cases plan with
  | keep changed => rfl
  | redirect target block seen message =>
    obtain ⟨⟨log, hconcluded⟩, -⟩ := conclude_spec extractor target block seen message s
    rw [hconcluded]

/-- A message that was concluded was kept, or its lines have moved. -/
theorem eq_shiftMembers_of_conclude {extractor : Extractor} {target : Target} {block : ScriptBlock}
    {seen : List Text} {message : Members} {s : Session} {adapted : Option Members}
    (h : (conclude extractor (.redirect target block seen message) s).2 = .ok adapted) :
    adapted = some (Json.shiftMembers (-block.lineOffset)
      (redirect extractor target block message)) := by
  rw [(conclude_spec extractor target block seen message s).2] at h
  split at h
  · cases h
  · rcases moveLines_cases s (-block.lineOffset) (redirect extractor target block message) with
      ⟨e, -, hmoved⟩ | hmoved
    · rw [hmoved] at h
      cases h
    · rw [hmoved] at h
      cases h
      rfl

/-- What becomes of a message whose offset is looked up: there is no looking it up, or the lines of
the message cannot be moved by what is found, or they move by it. -/
inductive Settlement (message : Members) (key : Option Text) (relocated : Members) (s : Session) :
    Session × Except Fault (Option Members) → Prop
  | unknown {e : Ledger.Error} (lookup_eq : s.ledger.lookup key (requestOrigin message)
        ((Json.get? "id" message).getD .null) = .error e) :
      Settlement message key relocated s (s, .error (.ledger e))
  | unmoved {offset : Option Int} {ledger : Ledger} {e : Fault}
      (lookup_eq : s.ledger.lookup key (requestOrigin message)
        ((Json.get? "id" message).getD .null) = .ok (offset, ledger))
      (unmovable : s.Unmovable (offset.getD 0) relocated e) :
      Settlement message key relocated s ({ s with ledger }, .error e)
  | moved {offset : Option Int} {ledger : Ledger}
      (lookup_eq : s.ledger.lookup key (requestOrigin message)
        ((Json.get? "id" message).getD .null) = .ok (offset, ledger))
      (moved_eq : s.moveLines (offset.getD 0) relocated
        = .ok (Json.shiftMembers (offset.getD 0) relocated)) :
      Settlement message key relocated s ({ s with ledger }, .ok
        (if Json.shiftMembers (offset.getD 0) relocated = message then none
          else some (Json.shiftMembers (offset.getD 0) relocated)))

theorem settlement_settle (message : Members) (key : Option Text) (relocated : Members)
    (s : Session) : Settlement message key relocated s (settle message key relocated s) := by
  unfold settle
  split
  · rename_i e hlookup
    exact .unknown hlookup
  · rename_i offset ledger hlookup
    dsimp only
    rcases moveLines_cases { s with ledger } (offset.getD 0) relocated with
      ⟨e, hunmovable, hmoved⟩ | hmoved
    · rw [hmoved]
      exact .unmoved hlookup (hunmovable.of_limits rfl)
    · rw [hmoved]
      exact .moved hlookup hmoved

/-- Looking the offset of a message up changes nothing but the order of the ledger. -/
theorem settle_kept (message : Members) (key : Option Text) (relocated : Members) (s : Session) :
    ∃ ledger : Ledger, (settle message key relocated s).1 = { s with ledger } ∧
      ∀ entry, ledger.get? entry = s.ledger.get? entry := by
  have hsettlement := settlement_settle message key relocated s
  generalize settle message key relocated s = result at hsettlement ⊢
  cases hsettlement with
  | unknown => exact ⟨s.ledger, rfl, fun _ => rfl⟩
  | unmoved lookup_eq => exact ⟨_, rfl, Ledger.get?_of_lookup lookup_eq⟩
  | moved lookup_eq => exact ⟨_, rfl, Ledger.get?_of_lookup lookup_eq⟩

theorem settle_get? (message : Members) (key : Option Text) (relocated : Members) (s : Session)
    (other : LedgerKey) :
    (settle message key relocated s).1.ledger.get? other = s.ledger.get? other := by
  obtain ⟨ledger, hsettle, hget⟩ := settle_kept message key relocated s
  rw [hsettle, hget]

/-! ## How lines move -/

/-- The plan of a message on its way is one for the message in its body. -/
structure Outbound.Planned (limits : Limits) (flight : Outbound) : Prop where
  decoded : Message.decode flight.body limits.reading = .object flight.message
  agrees : flight.plan.Agrees flight.message

/-- What goes out for a message of the editor: its own body, the message without its options, or
the redirected message with its lines moved up by the offset of its plan. Its integer lines are less
by that offset, but for those that lie above it. -/
structure Outbound.Forwarded (limits : Limits) (extractor : Extractor) (flight : Outbound)
    (out : List UInt8) : Prop extends flight.Planned limits where
  bytes : match flight.plan with
    | .keep none => out = flight.body
    | .keep (some changed) => Message.encode changed = .ok out
    | .redirect target block _ message =>
      ∃ members, Json.obj members
          = (Json.obj (redirect extractor target block message)).shiftLines (-flight.plan.offset) ∧
        Json.LinesMoved (-flight.plan.offset) (.obj (redirect extractor target block message))
          (.obj members) ∧
        Message.encode members = .ok out

theorem conclude_forwarded {limits : Limits} {extractor : Extractor} {flight : Outbound}
    {s : Session} {adapted : Option Members} {out : List UInt8} (hplanned : flight.Planned limits)
    (hok : (conclude extractor flight.plan s).2 = .ok adapted)
    (hout : Traffic.outgoingBody flight.body adapted = .ok out) :
    flight.Forwarded limits extractor out := by
  refine ⟨hplanned, ?_⟩
  cases hplan : flight.plan with
  | keep changed =>
    rw [hplan] at hok
    obtain rfl := Except.ok.inj hok
    cases changed with
    | none => exact (Except.ok.inj hout).symm
    | some changed => exact hout
  | redirect target block seen message =>
    rw [hplan] at hok
    obtain rfl := eq_shiftMembers_of_conclude hok
    have hlines := Json.shiftLines_obj (-block.lineOffset) (redirect extractor target block message)
    refine ⟨_, hlines.symm, ?_, hout⟩
    rw [← hlines]
    exact Json.linesMoved_shiftLines _ _

/-- A message of the server on its way is the one in its body, translated at some time. -/
structure Inbound.Translated (limits : Limits) (flight : Inbound) : Prop where
  decoded : Message.decode flight.body limits.reading = .object flight.message
  relocated : ∃ s, (translate flight.message s).2 = .ok (flight.key, flight.relocated)

/-- What goes out for a message of the server: the message with component URIs and with its lines
moved down by an offset, or its own body if that is what it holds. -/
structure Inbound.Returned (limits : Limits) (flight : Inbound) (offset : Int) (out : List UInt8) :
    Prop extends flight.Translated limits where
  nonneg : 0 ≤ offset
  moved : ∃ members, Json.obj members = (Json.obj flight.relocated).shiftLines offset ∧
    Json.LinesMoved offset (.obj flight.relocated) (.obj members) ∧
    (members = flight.message ∧ out = flight.body ∨ Message.encode members = .ok out)

/-- A message that is not about a document by its URI is translated without one. -/
theorem Inbound.Translated.key_eq {limits : Limits} {flight : Inbound}
    (h : flight.Translated limits)
    (huri : ∀ uri, (subject flight.message).member? "uri" ≠ some (.str uri)) :
    flight.key = none := by
  obtain ⟨s, h⟩ := h.relocated
  have hkey : relocateKey s.settings s.files (subject flight.message) = pure none := by
    unfold relocateKey
    split
    · rename_i uri h
      exact absurd h (huri uri)
    · rfl
  obtain ⟨st, st', hrun, -⟩ := translate_run h
  rw [hkey] at hrun
  exact (Except.ok.inj (Prod.mk.inj hrun).1).symm

theorem answerKey?_eq_some {message : Members} {id : RequestId} (h : answerKey? message = some id) :
    isResponse message = true ∧
      RequestId.ofJson ((Json.get? "id" message).getD .null) = .ok (some id) := by
  unfold answerKey? at h
  split at h
  · rename_i hresponse
    refine ⟨hresponse, ?_⟩
    revert h
    cases RequestId.ofJson _ with
    | error e => nofun
    | ok found => exact congrArg _
  · cases h

/-- A response that is not about a document goes out with its lines moved by the offset that is held
under its id. -/
theorem settle_returned {limits : Limits} {flight : Inbound} {s : Session}
    {adapted : Option Members} {out : List UInt8} (htranslated : flight.Translated limits)
    (hok : (settle flight.message flight.key flight.relocated s).2 = .ok adapted)
    (hout : Traffic.outgoingBody flight.body adapted = .ok out) (hkey : flight.key = none)
    {id : RequestId} (hid : answerKey? flight.message = some id)
    (hoffset : 0 ≤ (s.ledger.get? (.request .editor id)).getD 0) :
    flight.Returned limits ((s.ledger.get? (.request .editor id)).getD 0) out := by
  refine ⟨htranslated, hoffset, ?_⟩
  obtain ⟨hresponse, hrequest⟩ := answerKey?_eq_some hid
  have horigin : requestOrigin flight.message = .editor := if_pos hresponse
  rw [hkey] at hok
  have hsettlement := settlement_settle flight.message none flight.relocated s
  generalize settle flight.message none flight.relocated s = result at hok hsettlement
  cases hsettlement with
  | unknown | unmoved => cases hok
  | @moved offset ledger lookup_eq moved_eq =>
    obtain rfl := Except.ok.inj hok
    rw [horigin] at lookup_eq
    rw [← Ledger.lookup_request lookup_eq hrequest]
    have hlines := Json.shiftLines_obj (offset.getD 0) flight.relocated
    refine ⟨_, hlines.symm, ?_, ?_⟩
    · rw [← hlines]
      exact Json.linesMoved_shiftLines _ _
    · split at hout
      · rename_i hsame
        exact .inl ⟨hsame, (Except.ok.inj hout).symm⟩
      · exact .inr hout

/-! ## The account of the ledger -/

namespace Traffic

/-- The ledger accounts for the requests of the editor: under the id of one that was sent it holds
the offset of its plan, under the id of one on its way what is recorded already, and nothing under
any other id. What was returned after a request was sent moved by the offset of that request. -/
structure Accounted (limits : Limits) (extractor : Extractor) (t : Traffic) : Prop where
  within : t.session.limits = limits
  planned : ∀ flight ∈ t.outbound, flight.Planned limits
  isNew : ∀ flight ∈ t.outbound, ∀ id, requestKey? flight.message = some id →
    ∀ event ∈ t.events, event.request? ≠ some id
  pending : ∀ flight ∈ t.outbound, ∀ id, requestKey? flight.message = some id →
    t.session.ledger.get? (.request .editor id)
      = if flight.entered then flight.plan.recorded? else none
  nonneg : ∀ flight ∈ t.outbound, flight.entered = true → 0 ≤ flight.plan.offset
  sent : ∀ event ∈ t.events, ∀ id, event.request? = some id →
    (t.session.ledger.get? (.request .editor id)).getD 0 = event.offset
  unasked : ∀ id, (∀ event ∈ t.events, event.request? ≠ some id) →
    (∀ flight ∈ t.outbound, requestKey? flight.message ≠ some id) →
      t.session.ledger.get? (.request .editor id) = none
  translated : ∀ flight ∈ t.inbound, flight.Translated limits
  forwarded : ∀ flight out, .sent flight out ∈ t.events → flight.Forwarded limits extractor out
  offset_nonneg : ∀ event ∈ t.events, 0 ≤ event.offset
  returned : ∀ after flight out before, t.events = after ++ .answered flight out :: before →
    (∀ uri, (subject flight.message).member? "uri" ≠ some (.str uri)) →
      ∀ id, answerKey? flight.message = some id →
        ∀ event ∈ before, event.request? = some id → flight.Returned limits event.offset out

variable {limits : Limits} {extractor : Extractor} {t t' : Traffic}

theorem accounted_start (settings : Settings) (files : FileTree) (limits : Limits) :
    (start settings files limits).Accounted limits extractor where
  within := rfl
  planned := by simp [start]
  isNew := by simp [start]
  pending := by simp [start]
  nonneg := by simp [start]
  sent := by simp [start]
  unasked := by simp [start, Session.start, Lru.get?]
  translated := by simp [start]
  forwarded := by simp [start]
  offset_nonneg := by simp [start]
  returned := by simp [start]

/-- A session whose ledger finds the same under the ids of the editor. -/
theorem Accounted.withSession (h : t.Accounted limits extractor) (session : Session)
    (hlimits : session.limits = t.session.limits)
    (hledger : ∀ id, session.ledger.get? (.request .editor id)
      = t.session.ledger.get? (.request .editor id)) :
    { t with session }.Accounted limits extractor where
  within := hlimits.trans h.within
  planned := h.planned
  isNew := h.isNew
  pending := fun flight hflight id hid => (hledger id).trans (h.pending flight hflight id hid)
  nonneg := h.nonneg
  sent := fun event hevent id hid => by
    dsimp only
    rw [hledger]
    exact h.sent event hevent id hid
  unasked := fun id hevents hflight => (hledger id).trans (h.unasked id hevents hflight)
  translated := h.translated
  forwarded := h.forwarded
  offset_nonneg := h.offset_nonneg
  returned := h.returned

theorem request?_ne_of_hasAsked {message : Members} (h : t.hasAsked message = false)
    {id : RequestId} (hid : requestKey? message = some id) :
    ∀ event ∈ t.events, event.request? ≠ some id := by
  simpa [hasAsked, hid] using h

theorem Accounted.read (h : t.Accounted limits extractor) {body : List UInt8}
    (hstep : t.step? extractor (.read body) = some t') : t'.Accounted limits extractor := by
  obtain ⟨message, plan, hdecode, hidle, hasked, hplan, rfl⟩ := step?_read hstep
  obtain ⟨hledger, hlimits, hagrees⟩ := prepare_spec extractor message t.session
  have hsame := h.withSession (prepare extractor message t.session).1 hlimits fun id => by
    rw [hledger]
  have hnew : ∀ id, requestKey? message = some id →
      ∀ event ∈ t.events, event.request? ≠ some id :=
    fun id hid => request?_ne_of_hasAsked hasked hid
  -- The id is neither that of an event nor that of a message on its way, so nothing is recorded.
  have hnone : ∀ flight ∈ t.outbound, ∀ id, requestKey? flight.message ≠ some id := by
    simp [hidle]
  exact
    { hsame with
      planned := by
        rintro _ ⟨⟩
        exact ⟨h.within ▸ hdecode, hagrees plan hplan⟩
      isNew := by
        rintro _ ⟨⟩
        exact hnew
      pending := by
        rintro _ ⟨⟩ id hid
        exact hsame.unasked id (hnew id hid) fun flight hflight => hnone flight hflight id
      nonneg := by
        rintro _ ⟨⟩ hentered
        cases hentered
      unasked := fun id hevents _ =>
        hsame.unasked id hevents fun flight hflight => hnone flight hflight id }

theorem Accounted.enter (h : t.Accounted limits extractor)
    (hstep : t.step? extractor .enter = some t') : t'.Accounted limits extractor := by
  obtain ⟨flight, hflight, hwaiting, hevicted, hdone, rfl⟩ := step?_enter hstep
  obtain ⟨hoffset, hget⟩ := enter_spec (h.planned flight hflight).agrees hdone hevicted
  have hother : ∀ id, requestKey? flight.message ≠ some id →
      (Session.enter flight.plan t.session).1.ledger.get? (.request .editor id)
        = t.session.ledger.get? (.request .editor id) := by
    intro id hid
    rw [hget, if_neg hid]
  exact
    { h with
      within := (enter_limits _ _).trans h.within
      planned := by
        rintro _ ⟨⟩
        exact ⟨(h.planned flight hflight).decoded, (h.planned flight hflight).agrees⟩
      isNew := by
        rintro _ ⟨⟩
        exact h.isNew flight hflight
      pending := by
        rintro _ ⟨⟩ id hid
        have hpending := h.pending flight hflight id hid
        rw [hwaiting] at hpending
        rw [hget, if_pos hid, hpending]
        simp
      nonneg := by
        rintro _ ⟨⟩ -
        exact hoffset
      sent := fun event hevent id hid => by
        rw [hother id fun hkey => h.isNew flight hflight id hkey event hevent hid]
        exact h.sent event hevent id hid
      unasked := fun id hevents hflights => by
        have hid : requestKey? flight.message ≠ some id :=
          hflights { flight with entered := true } rfl
        rw [hother id hid]
        refine h.unasked id hevents fun other hmem => ?_
        obtain rfl := Option.mem_unique hflight hmem
        exact hid }

theorem Accounted.send (h : t.Accounted limits extractor)
    (hstep : t.step? extractor .send = some t') : t'.Accounted limits extractor := by
  obtain ⟨flight, adapted, out, hflight, hentered, hadapted, hout, rfl⟩ := step?_send hstep
  have hsame := h.withSession (conclude extractor flight.plan t.session).1
    (conclude_limits extractor flight.plan t.session) fun id => by rw [conclude_ledger]
  have hpending : ∀ id, requestKey? flight.message = some id →
      (conclude extractor flight.plan t.session).1.ledger.get? (.request .editor id)
        = flight.plan.recorded? := by
    intro id hid
    have := hsame.pending flight hflight id hid
    rwa [if_pos hentered] at this
  -- The message leaves the way and becomes an event: what was pending for it is now what was sent,
  -- and its id is asked for by an event instead of a message on its way.
  exact
    { hsame with
      planned := nofun
      isNew := nofun
      pending := nofun
      nonneg := nofun
      sent := fun event hevent id hid => by
        rcases List.mem_cons.mp hevent with rfl | hevent
        · exact congrArg (Option.getD · 0) (hpending id hid)
        · exact hsame.sent event hevent id hid
      unasked := fun id hevents _ => by
        refine hsame.unasked id (fun event hevent => hevents event (.tail _ hevent)) ?_
        intro other hmem
        obtain rfl := Option.mem_unique hflight hmem
        exact hevents (.sent flight out) (.head _)
      forwarded := fun other out' hmem => by
        rcases List.mem_cons.mp hmem with heq | hmem
        · obtain ⟨rfl, rfl⟩ := Event.sent.inj heq
          exact conclude_forwarded (h.planned _ hflight) hadapted hout
        · exact h.forwarded other out' hmem
      offset_nonneg := fun event hevent => by
        rcases List.mem_cons.mp hevent with rfl | hevent
        · exact h.nonneg flight hflight hentered
        · exact h.offset_nonneg event hevent
      returned := fun after answer out' before hevents => by
        cases after with
        | nil => cases hevents
        | cons first after => exact h.returned after answer out' before (List.cons.inj hevents).2 }

theorem Accounted.receive (h : t.Accounted limits extractor) {body : List UInt8}
    (hstep : t.step? extractor (.receive body) = some t') : t'.Accounted limits extractor := by
  obtain ⟨message, key, relocated, hdecode, htranslated, rfl⟩ := step?_receive hstep
  have hsame := h.withSession (translate message t.session).1 rfl
    fun id => by rw [translate_ledger]
  exact
    { hsame with
      translated := by
        rintro _ ⟨⟩
        exact ⟨h.within ▸ hdecode, t.session, htranslated⟩ }

theorem Accounted.answer (h : t.Accounted limits extractor)
    (hstep : t.step? extractor .answer = some t') : t'.Accounted limits extractor := by
  obtain ⟨flight, adapted, out, hflight, hadapted, hout, rfl⟩ := step?_answer hstep
  obtain ⟨ledger, hsettle, -⟩ :=
    settle_kept flight.message flight.key flight.relocated t.session
  have hsame := h.withSession
    (settle flight.message flight.key flight.relocated t.session).1 (by rw [hsettle])
    fun id => settle_get? _ _ _ _ _
  have hold : ∀ event ∈ Event.answered flight out :: t.events, ∀ id,
      event.request? = some id → event ∈ t.events := by
    intro event hevent id hid
    rcases List.mem_cons.mp hevent with rfl | hevent
    · cases hid
    · exact hevent
  exact
    { hsame with
      isNew := fun other hmem id hid event hevent hasks =>
        h.isNew other hmem id hid event (hold event hevent id hasks) hasks
      sent := fun event hevent id hid => hsame.sent event (hold event hevent id hid) id hid
      unasked := fun id hevents =>
        hsame.unasked id fun event hevent => hevents event (.tail _ hevent)
      translated := nofun
      forwarded := fun other out' hmem => by
        rcases List.mem_cons.mp hmem with heq | hmem
        · cases heq
        · exact h.forwarded other out' hmem
      offset_nonneg := fun event hevent => by
        rcases List.mem_cons.mp hevent with rfl | hevent
        · exact Int.le_refl 0
        · exact h.offset_nonneg event hevent
      returned := fun after answer out' before hevents huri id hid event hevent hasks => by
        cases after with
        | nil =>
          obtain ⟨hanswer, rfl⟩ := List.cons.inj hevents
          obtain ⟨rfl, rfl⟩ := Event.answered.inj hanswer
          have htranslated := h.translated flight hflight
          have hoffset := h.offset_nonneg event hevent
          rw [← h.sent event hevent id hasks] at hoffset ⊢
          exact settle_returned htranslated hadapted hout (htranslated.key_eq huri) hid hoffset
        | cons first after =>
          exact h.returned after answer out' before (List.cons.inj hevents).2 huri id hid event
            hevent hasks }

/-- Every move keeps the account. -/
theorem Accounted.step (h : t.Accounted limits extractor) {move : Move}
    (hstep : t.step? extractor move = some t') : t'.Accounted limits extractor := by
  cases move with
  | read body => exact h.read hstep
  | enter => exact h.enter hstep
  | send => exact h.send hstep
  | receive body => exact h.receive hstep
  | answer => exact h.answer hstep
  | drift others =>
    obtain rfl := Option.some.inj hstep
    exact h.withSession _ rfl fun id => rfl

/-- And so does every sequence of moves. -/
theorem Accounted.run (h : t.Accounted limits extractor) {moves : List Move}
    (hrun : run extractor moves t = some t') : t'.Accounted limits extractor := by
  induction moves generalizing t with
  | nil =>
    obtain rfl := Option.some.inj hrun
    exact h
  | cons move moves ih =>
    obtain ⟨next, hstep, hrest⟩ := run_cons hrun
    exact ih (h.step hstep) hrest

/-- **Requests and responses use the same offset.** In every sequence of moves from the start,
however the moves of the two directions interleave, let a request of the editor be sent on and, at
any time later, a response to it whose result does not name a document. The lines of the request
moved up by the offset of its plan, which is zero if it was kept, and every line of the response
that is a non-negative integer moves down by the same offset. -/
theorem response_offset {settings : Settings} {files : FileTree} {moves : List Move}
    (hrun : run extractor moves (start settings files limits) = some t)
    (after between before : List Event) {request : Outbound} {answer : Inbound}
    {out out' : List UInt8}
    (hevents : t.events
      = after ++ .answered answer out' :: (between ++ .sent request out :: before))
    {id : RequestId} (hrequest : requestKey? request.message = some id)
    (hresponse : answerKey? answer.message = some id)
    (huri : ∀ uri, (subject answer.message).member? "uri" ≠ some (.str uri)) :
    request.Forwarded limits extractor out ∧
      answer.Returned limits request.plan.offset out' := by
  have haccount := (accounted_start settings files limits).run hrun
  refine ⟨haccount.forwarded request out ?_, ?_⟩
  · rw [hevents]
    simp
  · exact haccount.returned after answer out' _ hevents huri id hresponse (.sent request out)
      (by simp) hrequest

/-- A response comes while another message moves the block of the same document: the request moved
by one line, the other message by two, and the response moves back by one. -/
theorem response_offset_interleaved :
    ∃ (moves : List Move) (t : Traffic) (answer : Inbound) (other : Event) (request : Outbound)
      (out out' : List UInt8),
      run (.ofLang "gleam") moves
        (start ⟨⟨.root, []⟩, "src", "gen", "gleam", "gleam", 8⟩ (.empty [])) = some t ∧
      t.events = [] ++ .answered answer out' :: ([other] ++ .sent request out :: []) ∧
      requestKey? request.message = some (.integer 1) ∧
      answerKey? answer.message = some (.integer 1) ∧
      (∀ uri, (subject answer.message).member? "uri" ≠ some (.str uri)) ∧
      request.plan.offset = 1 ∧ other.offset = 2 ∧
      out' = Utf8.ofString "\x7b\"id\":1,\"result\":\x7b\"line\":1\x7d\x7d" ∧
      request.Forwarded .standard (.ofLang "gleam") out ∧
        answer.Returned .standard request.plan.offset out' := by
  have hcheck : (run (.ofLang "gleam")
      [.read (Utf8.ofString ("\x7b\"id\":1,\"method\":\"textDocument/hover\",\"params\":\x7b"
          ++ "\"textDocument\":\x7b\"uri\":\"file:///src/A.vue\","
          ++ "\"text\":\"\\n<script lang=gleam>x</script>\"\x7d,"
          ++ "\"position\":\x7b\"line\":1\x7d\x7d\x7d")),
        .enter, .send,
        .read (Utf8.ofString ("\x7b\"method\":\"textDocument/didOpen\",\"params\":\x7b"
          ++ "\"textDocument\":\x7b\"uri\":\"file:///src/A.vue\","
          ++ "\"text\":\"\\n\\n<script lang=gleam>x</script>\"\x7d\x7d\x7d")),
        .enter, .receive (Utf8.ofString "\x7b\"id\":1,\"result\":\x7b\"line\":0\x7d\x7d"),
        .send, .answer]
      (start ⟨⟨.root, []⟩, "src", "gen", "gleam", "gleam", 8⟩ (.empty []))).any (fun t =>
        t.events.map (fun event => (event.request?, event.answer?, event.offset))
            = [(none, some (.integer 1), 0), (none, none, 2), (some (.integer 1), none, 1)] ∧
          t.events.head?.map Event.out
            = some (Utf8.ofString "\x7b\"id\":1,\"result\":\x7b\"line\":1\x7d\x7d") ∧
          (t.events.head?.bind fun event => (subject event.message).member? "uri") = none)
      = true := by
    simp only [Utf8.ofString_append, Utf8.ofString_ofList, Text.ofString_ofList]
    decide +kernel
  obtain ⟨t, hrun, hcheck⟩ := (Option.any_eq_true _ _).mp hcheck
  obtain ⟨hevents, hout, huri⟩ := of_decide_eq_true hcheck
  obtain ⟨last, rest, ht, hlast, hrest⟩ := List.map_eq_cons_iff.mp hevents
  obtain ⟨other, rest, rfl, hother, hrest⟩ := List.map_eq_cons_iff.mp hrest
  obtain ⟨first, rest, rfl, hfirst, hrest⟩ := List.map_eq_cons_iff.mp hrest
  obtain rfl := List.map_eq_nil_iff.mp hrest
  simp only [Prod.mk.injEq] at hlast hother hfirst
  obtain ⟨answer, out', rfl⟩ : ∃ answer out', last = .answered answer out' := by
    cases last with
    | sent => cases hlast.2.1
    | answered answer out' => exact ⟨answer, out', rfl⟩
  obtain ⟨request, out, rfl⟩ : ∃ request out, first = .sent request out := by
    cases first with
    | sent request out => exact ⟨request, out, rfl⟩
    | answered => cases hfirst.1
  simp only [ht, List.head?_cons, Option.map_some, Option.bind_some, Option.some.injEq] at hout huri
  have hnone : ∀ uri, (subject answer.message).member? "uri" ≠ some (.str uri) := by
    intro uri h
    cases huri.symm.trans h
  exact ⟨_, t, answer, other, request, out, out', hrun, ht, hfirst.1, hlast.2.1, hnone, hfirst.2.2,
    hother.2.2, hout, response_offset hrun [] [other] [] ht hfirst.1 hlast.2.1 hnone⟩

end Traffic

end SfcProxy.Session
