import SfcProxy.Proofs.Session.Relocation
import SfcProxy.Proofs.Session.Traffic

/-!
# Runs of a session

A session goes on by turns: a body comes from the editor or from the server and passes the proxy,
or the files change. Every turn keeps the session sound: the ledger holds no offset below zero, and
the map of URIs holds file URIs alone.

## Main definitions

* `Turn`, `turn`, `after`: a turn, and a session after one or many of them
* `Target.IsOf`: a component is the one that a message is about
* `Sound`: what holds of a session at all times

## Main results

* `Target.isOf`: what it is for a message to be about a component
* `Sound.incoming`, `Sound.outgoing`: the two adaptations keep a session sound
* `after_induction`: what every turn keeps, every run keeps
* `limits_after`: no run changes the limits
* `Sound.turn`, `sound_after`: every turn and every run keep a session sound
-/

namespace SfcProxy.Session

/-! ## Turns -/

/-- What can happen in a session. -/
inductive Turn where
  | editor (body : List UInt8)
  | server (body : List UInt8)
  | files (tree : FileTree)

/-- The session after a turn. -/
def turn (extractor : Extractor) (s : Session) : Turn → Session
  | .editor body => (fromEditor extractor body s).1
  | .server body => (fromServer body s).1
  | .files tree => { s with files := tree }

/-- The session after a run of turns. -/
def after (extractor : Extractor) : List Turn → Session → Session
  | [], s => s
  | t :: turns, s => after extractor turns (turn extractor s t)

/-- What every turn keeps, every run keeps. -/
theorem after_induction {P : Session → Prop} {extractor : Extractor}
    (hturn : ∀ s t, P s → P (turn extractor s t)) (turns : List Turn) {s : Session} (h : P s) :
    P (after extractor turns s) := by
  induction turns generalizing s with
  | nil => exact h
  | cons t turns ih => exact ih (hturn s t h)

section Pass

variable (adapt : Members → Session → Session × Except Fault (Option Members))
  (failure : Members → LogRecord) (body : List UInt8) (s : Session)

/-- What does not hang on the records is after a body what it is after its message. -/
theorem pass_view {α : Type} {view : Session → α}
    (hview : ∀ (s : Session) log, view (s.logged log) = view s) :
    view (pass adapt failure body s).1 = match s.decode body with
      | .object message => view (adapt message s).1
      | _ => view s := by
  unfold pass
  cases s.decode body with
  | object message =>
    dsimp only
    rcases adapt message s with ⟨s', e | _ | adapted⟩
    · exact hview s' _
    · rfl
    · dsimp only
      cases Message.encode adapted <;> rfl
  | undecodable _ => exact hview s _
  | other | beyondLimits _ => rfl

theorem pass_ledger :
    (pass adapt failure body s).1.ledger = match s.decode body with
      | .object message => (adapt message s).1.ledger
      | _ => s.ledger :=
  pass_view adapt failure body s fun _ _ => rfl

theorem pass_uris :
    (pass adapt failure body s).1.uris = match s.decode body with
      | .object message => (adapt message s).1.uris
      | _ => s.uris :=
  pass_view adapt failure body s fun _ _ => rfl

theorem pass_files :
    (pass adapt failure body s).1.files = match s.decode body with
      | .object message => (adapt message s).1.files
      | _ => s.files :=
  pass_view adapt failure body s fun _ _ => rfl

theorem pass_limits :
    (pass adapt failure body s).1.limits = match s.decode body with
      | .object message => (adapt message s).1.limits
      | _ => s.limits :=
  pass_view adapt failure body s fun _ _ => rfl

end Pass

/-! ## What a plan is about -/

/-- A component is the one that a message is about. -/
structure Target.IsOf (settings : Settings) (message : Members) (target : Target) : Prop where
  params : Json.get? "params" message = some (.obj target.params)
  document : Json.get? "textDocument" target.params = some (.obj target.document)
  uri : Json.get? "uri" target.document = some (.str target.uri)
  isComponent : FileUri.isComponent target.uri = .ok true
  path : FileUri.toPath? target.uri = .ok (some target.path)
  generated : UriMap.toGenerated? settings target.uri = .ok (some target.generated)

theorem Target.isOf {settings : Settings} {message : Members} {target : Target}
    (h : target? settings message = .ok (some target)) : target.IsOf settings message := by
  unfold target? at h
  split at h
  · rename_i params hparams
    split at h
    · rename_i document hdocument
      split at h
      · rename_i uri huri
        obtain ⟨component, hcomponent, h⟩ := bind_eq_ok h
        split at h
        · cases h
        · rename_i htrue
          rw [Bool.not_eq_true', Bool.not_eq_false] at htrue
          obtain ⟨path?, hpath, h⟩ := bind_eq_ok h
          obtain ⟨generated?, hgenerated, h⟩ := bind_eq_ok h
          split at h
          · cases h
            exact ⟨hparams, hdocument, huri, htrue ▸ hcomponent, hpath, hgenerated⟩
          · cases h
      · cases h
    · cases h
  · cases h

theorem toGenerated?_of_target? {settings : Settings} {message : Members} {target : Target}
    (h : target? settings message = .ok (some target)) :
    UriMap.toGenerated? settings target.uri = .ok (some target.generated) :=
  (Target.isOf h).generated

/-- Finding out about a message leaves URIs and settings alone, and a message is redirected only if
it is about a component. -/
theorem planFor_kept (extractor : Extractor) (message : Members) (changed : Option Members)
    (s : Session) :
    (planFor extractor message changed s).1.uris = s.uris ∧
      (planFor extractor message changed s).1.settings = s.settings ∧
      ∀ target block seen redirected,
        (planFor extractor message changed s).2 = .ok (.redirect target block seen redirected) →
          target? s.settings message = .ok (some target) := by
  have hplanning := planning_planFor extractor message changed s
  generalize planFor extractor message changed s = result at hplanning ⊢
  cases hplanning with
  | misnamed | foreign | unread | blockless | unwritten => exact ⟨rfl, rfl, nofun⟩
  | redirected target_eq =>
    refine ⟨rfl, rfl, fun target' _ _ _ hplan => ?_⟩
    cases hplan
    exact target_eq

/-- A message without the proxy's options: the message, once more if options were taken out of it,
and the session with the settings that they lead to. -/
structure Unwrapped where
  message : Members
  changed : Option Members
  session : Session

/-- Takes the proxy's options out of a message. -/
def unwrap (message : Members) (s : Session) : Unwrapped :=
  match consumeOptions? s.settings message with
  | some (stripped, settings, log) => ⟨stripped, some stripped, { s with settings }.logged log⟩
  | none => ⟨message, none, s⟩

theorem prepare_eq (extractor : Extractor) (message : Members) (s : Session) :
    prepare extractor message s = planFor extractor (unwrap message s).message
      (unwrap message s).changed (unwrap message s).session := by
  unfold prepare unwrap
  cases consumeOptions? s.settings message <;> rfl

/-- Options change settings, and leave URIs and files alone. -/
theorem unwrap_kept (message : Members) (s : Session) :
    (unwrap message s).session.uris = s.uris ∧ (unwrap message s).session.files = s.files := by
  unfold unwrap
  split <;> exact ⟨rfl, rfl⟩

theorem incoming_eq (extractor : Extractor) (message : Members) (s : Session) :
    incoming extractor message s = match (prepare extractor message s).2 with
      | .error e => ((prepare extractor message s).1, .error e)
      | .ok plan =>
        match (enter plan (prepare extractor message s).1).2 with
        | .error e => ((enter plan (prepare extractor message s).1).1, .error e)
        | .ok () => conclude extractor plan (enter plan (prepare extractor message s).1).1 := by
  unfold incoming
  rcases prepare extractor message s with ⟨s₁, e | plan⟩
  · rfl
  · dsimp only
    rcases enter plan s₁ with ⟨s₂, e | ⟨⟩⟩ <;> rfl

/-- Recording the offset of a redirected message changes the ledger and nothing else. -/
theorem enter_eq (target : Target) (block : ScriptBlock) (seen : List Text) (message : Members)
    (s : Session) : enter (.redirect target block seen message) s =
      ({ s with ledger := (s.ledger.record s.settings.maxTracked block.lineOffset
          (some target.uri) .editor (requestId message)).1 },
        match (s.ledger.record s.settings.maxTracked block.lineOffset (some target.uri) .editor
          (requestId message)).2 with
        | some refusal => .error (.ledger refusal)
        | none => .ok ()) := by
  unfold enter
  dsimp only
  rcases s.ledger.record s.settings.maxTracked block.lineOffset (some target.uri) .editor
    (requestId message) with ⟨ledger, _ | refusal⟩ <;> rfl

theorem outgoing_eq (message : Members) (s : Session) :
    outgoing message s = match (translate message s).2 with
      | .error e => ((translate message s).1, .error e)
      | .ok (key, relocated) => settle message key relocated (translate message s).1 := by
  unfold outgoing
  rcases translate message s with ⟨s₁, e | ⟨key, relocated⟩⟩ <;> rfl

theorem settle_uris (message : Members) (key : Option Text) (relocated : Members) (s : Session) :
    (settle message key relocated s).1.uris = s.uris := by
  obtain ⟨ledger, hsettle, -⟩ := settle_kept message key relocated s
  rw [hsettle]

/-- The ledger learns nothing from the server. -/
theorem mem_ledger_of_outgoing {message : Members} {s : Session} {entry : LedgerKey × Int}
    (h : entry ∈ (outgoing message s).1.ledger) : entry ∈ s.ledger := by
  rw [outgoing_eq] at h
  split at h
  · exact h
  · rename_i key relocated _
    have hsettlement := settlement_settle message key relocated (translate message s).1
    generalize settle message key relocated (translate message s).1 = result at h hsettlement
    cases hsettlement with
    | unknown => exact h
    | unmoved lookup_eq => exact (Ledger.lookup_spec lookup_eq).2 entry h
    | moved lookup_eq => exact (Ledger.lookup_spec lookup_eq).2 entry h

/-! ## Limits -/

theorem incoming_limits (extractor : Extractor) (message : Members) (s : Session) :
    (incoming extractor message s).1.limits = s.limits := by
  obtain ⟨-, hlimits, -⟩ := prepare_spec extractor message s
  rw [incoming_eq]
  split
  · exact hlimits
  split
  · rw [enter_limits, hlimits]
  · rw [conclude_limits, enter_limits, hlimits]

theorem outgoing_limits (message : Members) (s : Session) :
    (outgoing message s).1.limits = s.limits := by
  rw [outgoing_eq]
  split
  · rfl
  · rename_i key relocated _
    obtain ⟨ledger, hsettle, -⟩ := settle_kept message key relocated (translate message s).1
    rw [hsettle]
    rfl

theorem fromEditor_limits (extractor : Extractor) (body : List UInt8) (s : Session) :
    (fromEditor extractor body s).1.limits = s.limits := by
  rw [fromEditor, pass_limits]
  split
  · exact incoming_limits extractor _ s
  · rfl

theorem fromServer_limits (body : List UInt8) (s : Session) :
    (fromServer body s).1.limits = s.limits := by
  rw [fromServer, pass_limits]
  split
  · exact outgoing_limits _ s
  · rfl

/-- A session keeps the limits that it starts with. -/
theorem limits_after (extractor : Extractor) (turns : List Turn) (s : Session) :
    (after extractor turns s).limits = s.limits :=
  after_induction (P := fun t => t.limits = s.limits) (fun t next h => by
    cases next with
    | editor body => exact (fromEditor_limits extractor body t).trans h
    | server body => exact (fromServer_limits body t).trans h
    | files tree => exact h) turns rfl

/-! ## Soundness -/

/-- The ledger holds no offset below zero, and all URIs in the map are those of files. -/
structure Sound (s : Session) : Prop where
  offsets : ∀ entry ∈ s.ledger, 0 ≤ entry.2
  uris : UriMap.OfFiles s.uris

theorem sound_start (settings : Settings) (files : FileTree) (limits : Limits) :
    Sound (start settings files limits) :=
  ⟨nofun, nofun⟩

namespace Sound

variable {s : Session}

theorem enter (h : Sound s) (plan : Plan) : Sound (Session.enter plan s).1 := by
  cases plan with
  | keep changed => exact h
  | redirect target block seen message =>
    rw [enter_eq]
    refine ⟨fun entry hentry => ?_, h.uris⟩
    rcases Ledger.mem_record hentry with ⟨hentry, -⟩ | ⟨hoffset, hvalue, -⟩
    · exact h.offsets entry hentry
    · rwa [hvalue]

theorem conclude (h : Sound s) (extractor : Extractor) {plan : Plan}
    (hplan : ∀ target block seen message, plan = .redirect target block seen message →
      ∃ settings, UriMap.toGenerated? settings target.uri = .ok (some target.generated)) :
    Sound (Session.conclude extractor plan s).1 := by
  cases plan with
  | keep changed => exact h
  | redirect target block seen message =>
    obtain ⟨settings, htarget⟩ := hplan target block seen message rfl
    obtain ⟨hcomponent, hgenerated⟩ := UriMap.hasScheme_of_toGenerated? htarget
    obtain ⟨⟨log, hconcluded⟩, -⟩ := conclude_spec extractor target block seen message s
    rw [hconcluded]
    exact ⟨h.offsets, h.uris.register hgenerated hcomponent s.settings⟩

/-- Adapting a message of the editor keeps a session sound. -/
theorem incoming (h : Sound s) (extractor : Extractor) (message : Members) :
    Sound (Session.incoming extractor message s).1 := by
  obtain ⟨huris, -, htarget⟩ := planFor_kept extractor (unwrap message s).message
    (unwrap message s).changed (unwrap message s).session
  rw [(unwrap_kept message s).1, ← prepare_eq] at huris
  rw [← prepare_eq] at htarget
  have h₁ : Sound (prepare extractor message s).1 :=
    ⟨by rw [(prepare_spec extractor message s).1]; exact h.offsets, by rw [huris]; exact h.uris⟩
  rw [incoming_eq]
  split
  · exact h₁
  · rename_i plan hplan
    split
    · exact h₁.enter plan
    · refine (h₁.enter plan).conclude extractor ?_
      rintro target block seen redirected rfl
      exact ⟨_, toGenerated?_of_target? (htarget target block seen redirected hplan)⟩

/-- Adapting a message of the server keeps a session sound. -/
theorem outgoing (h : Sound s) (message : Members) : Sound (Session.outgoing message s).1 := by
  refine ⟨fun entry hentry => h.offsets entry (mem_ledger_of_outgoing hentry), ?_⟩
  have huris := (translate_shiftMembers h.uris 0 message).2
  rw [outgoing_eq]
  split
  · exact huris
  · rw [settle_uris]
    exact huris

theorem pass (h : Sound s)
    {adapt : Members → Session → Session × Except Fault (Option Members)}
    (hadapt : ∀ message, Sound (adapt message s).1) (failure : Members → LogRecord)
    (body : List UInt8) : Sound (Session.pass adapt failure body s).1 := by
  unfold Session.pass
  split
  · exact h
  · exact ⟨h.offsets, h.uris⟩
  · exact h
  · rename_i message _
    have h₁ := hadapt message
    split
    all_goals
      rename_i heq
      rw [heq] at h₁
    · exact ⟨h₁.offsets, h₁.uris⟩
    · exact h₁
    · split <;> exact h₁

/-- Every turn keeps a session sound. -/
theorem turn (h : Sound s) (extractor : Extractor) (t : Turn) :
    Sound (Session.turn extractor s t) := by
  cases t with
  | editor body => exact h.pass (h.incoming extractor) incomingFailure body
  | server body => exact h.pass h.outgoing outgoingFailure body
  | files tree => exact ⟨h.offsets, h.uris⟩

/-- And so does every run. -/
theorem after (h : Sound s) (extractor : Extractor) (turns : List Turn) :
    Sound (Session.after extractor turns s) :=
  after_induction (fun _ t hs => hs.turn extractor t) turns h

end Sound

theorem sound_after (extractor : Extractor) (turns : List Turn) (settings : Settings)
    (files : FileTree) (limits : Limits) :
    Sound (after extractor turns (start settings files limits)) :=
  (sound_start settings files limits).after extractor turns

end SfcProxy.Session
