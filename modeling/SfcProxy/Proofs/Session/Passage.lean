import SfcProxy.Proofs.Session.Kinds
import SfcProxy.Proofs.Session.Readable

/-!
# Which bodies pass unchanged

A body passes as the very same bytes unless it is a message that the proxy has a part in. A message
of the editor is one if it holds options for the proxy, or if it is about a component and some text
of the component at hand has a block. A message of the server is one if a component is found for
some URI in it, or if some line in it moves. A message that the proxy has a part in comes out as
another message, so that nothing is written anew for nothing, and nothing is missed.

Neither direction says so in one place. A message of the editor is given up at many points, and a
message of the server is compared with what became of it, after two walks.

## Main definitions

* `Session.AtHand`: a text of a component that a message carries or that is on disk
* `Session.Concerns`: a message of the editor that the proxy has a part in
* `Session.Touched`: a message of the server that the proxy has a part in
* `Session.Faithful`: a body passes as the very same bytes, or comes out as another message

## Main results

* `Session.incoming_none_iff`, `Session.outgoing_none_iff`: which messages stay as they are
* `Session.bodies_pass_unchanged_iff`: which bodies do
-/

namespace SfcProxy

namespace Json

theorem set_eq_self {name : Text} {v : Json} {members : Members} (h : get? name members = some v) :
    set name v members = members := by
  induction members with
  | nil => cases h
  | cons entry rest ih =>
    obtain ⟨key, old⟩ := entry
    rw [get?] at h
    rw [set]
    split at h
    · rename_i hkey
      cases h
      rw [if_pos hkey]
    · rename_i hkey
      rw [if_neg hkey, ih h]

/-- The URI of a value is looked up. -/
theorem mem_uris_of_member? {v : Json} {uri : Text} (h : v.member? "uri" = some (.str uri)) :
    uri ∈ v.uris := by
  cases v with
  | obj members =>
    rw [member?] at h
    rw [uris]
    induction members with
    | nil => cases h
    | cons entry rest ih =>
      obtain ⟨name, v⟩ := entry
      rw [get?] at h
      rw [urisMembers, List.mem_append]
      split at h
      · rename_i hname
        cases h
        left
        rw [hname, urisMember, if_pos (by decide)]
        exact List.mem_singleton_self uri
      · exact .inr (ih h)
  | null | bool _ | int _ | real _ | str _ | arr _ => cases h

/-- A URI stands in a value where URIs stand in messages: it is the text of a member for URIs, or
the name of a member of one whose members are named by URIs. Not all of these are looked up: what is
named by a URI is not a member for URIs, whatever the name. -/
inductive Mentions (uri : Text) : Json → Prop
  | item {items : List Json} {v : Json} (mem : v ∈ items) (part : Mentions uri v) :
      Mentions uri (.arr items)
  | member {members : Members} {name : Text} {v : Json} (mem : (name, v) ∈ members)
      (part : Mentions uri v) : Mentions uri (.obj members)
  | field {members : Members} {name : Text} (mem : (name, .str uri) ∈ members)
      (text : Session.isUriField name = true) : Mentions uri (.obj members)
  | key {members named : Members} {name : Text} {v : Json} (mem : (name, .obj named) ∈ members)
      (names : Session.isUriKeyed name = true) (entry : (uri, v) ∈ named) :
      Mentions uri (.obj members)

end Json

namespace Session

variable {extractor : Extractor} {message : Members} {s : Session}

/-! ## Messages of the editor -/

/-- A text of a component that is at hand: a whole-document change or the inline text of a message,
or what is on disk. -/
def AtHand (files : FileTree) (target : Target) (text : Text) : Prop :=
  text ∈ candidates target ∨ ∃ log, diskText files target.path = .ok (some text, log)

/-- The proxy has a part in a message of the editor: it holds options for the proxy, or it is about
a component below the source directory, and some text of it that is at hand has a block. -/
def Concerns (extractor : Extractor) (message : Members) (s : Session) : Prop :=
  (ownOptions? message).isSome ∨ ∃ target : Target, target.IsOf s.settings message ∧
    ∃ text, AtHand s.files target text ∧ (pieceOf? extractor text).isSome

theorem decidingBlock_of_atHand {files : FileTree} {target : Target} {text : Text}
    (hat : AtHand files target text) (hpiece : (pieceOf? extractor text).isSome) :
    ∃ block, decidingBlock extractor files target = .ok (some block) := by
  unfold decidingBlock
  cases hfound : (candidates target).findSome? (pieceOf? extractor) with
  | some block => exact ⟨block, rfl⟩
  | none =>
    rcases hat with hmem | ⟨log, hdisk⟩
    · rw [List.findSome?_eq_none_iff.mp hfound text hmem] at hpiece
      cases hpiece
    · obtain ⟨block, hblock⟩ := Option.isSome_iff_exists.mp hpiece
      refine ⟨block, ?_⟩
      rw [hdisk, ← hblock]
      rfl

theorem exists_atHand {files : FileTree} {target : Target} {block : ScriptBlock}
    (h : decidingBlock extractor files target = .ok (some block)) :
    ∃ text, AtHand files target text ∧ (pieceOf? extractor text).isSome := by
  obtain ⟨text, hat, hpiece⟩ := exists_text_of_decidingBlock h
  exact ⟨text, hat, by rw [hpiece]; rfl⟩

theorem unwrap_of_no_options (h : ownOptions? message = none) (s : Session) :
    unwrap message s = ⟨message, none, s⟩ := by
  rcases unwrap_cases message s with ⟨-, hsame⟩ | ⟨params, options, own, -, -, hown, -⟩
  · exact hsame
  · rw [h] at hown
    cases hown

/-- A message is not the same without its options. -/
theorem unwrap_of_options {own : Json} (h : ownOptions? message = some own) (s : Session) :
    (unwrap message s).changed = some (unwrap message s).message ∧
      (unwrap message s).message ≠ message := by
  rcases unwrap_cases message s with
    ⟨hown, -⟩ | ⟨params, options, own', hparams, hoptions, hown, hmessage, hchanged⟩
  · rw [h] at hown
    cases hown
  rw [hmessage] at hchanged ⊢
  refine ⟨hchanged, fun hsame => ?_⟩
  have hlost : (keptOptions options).follow? [.member ownSection] = none := by
    unfold keptOptions
    split
    · rfl
    · rw [Json.follow?, Json.get?_erase, if_pos rfl, Option.bind_none]
  have hheld : (Json.obj message).follow? optionsPath = some own' := by
    unfold ownOptions? at hown
    split at hown
    · exact hown
    · cases hown
  rw [← hsame] at hheld
  rw [optionsPath, Json.follow?_set, if_pos rfl, Json.follow?_set, if_pos rfl, hlost] at hheld
  cases hheld

/-- A redirected message is about another document. -/
theorem Redirected.ne {target : Target} {block : ScriptBlock} {generated : Path} {out : Members}
    (hredirects : Redirects extractor message s target block generated)
    (h : Redirected extractor message s target block (some out)) : out ≠ message := by
  have hout : (Json.obj out).follow? uriPath = some (.str target.generated) := by
    rw [Option.some.inj h.result]
    exact follow?_uriPath_redirect _
  rintro rfl
  have hin := hredirects.isOf.follow?_uriPath
  rw [follow?_uriPath_unwrap, hout, Option.some.injEq, Json.str.injEq] at hin
  obtain ⟨hgenerated, hcomponent⟩ :=
    UriMap.endsIn_of_toGenerated? hredirects.isOf.isComponent hredirects.isOf.generated
  rw [hin] at hgenerated
  exact FileUri.not_endsIn_both hgenerated hcomponent

/-- A message of the editor stays as it is exactly if the proxy has no part in it. -/
theorem incoming_none_iff {result : Option Members}
    (hok : (incoming extractor message s).2 = .ok result) :
    result = none ↔ ¬ Concerns extractor message s := by
  cases hown : ownOptions? message with
  | some own =>
    refine iff_of_false ?_ (not_not_intro (.inl (by rw [hown]; rfl)))
    rcases incoming_cases hok with hkept | ⟨target, block, generated, hredirects, hredirected⟩
    · rw [hkept.result, (unwrap_of_options hown s).1]
      nofun
    · rw [hredirected.result]
      nofun
  | none =>
    have hunwrap := unwrap_of_no_options hown s
    have hsettings : settingsBy message s.settings = s.settings := by rw [settingsBy, hown]
    rcases incoming_cases hok with hkept | ⟨target, block, generated, hredirects, hredirected⟩
    · refine iff_of_true (by rw [hkept.result, hunwrap]) ?_
      rintro (hoptions | ⟨target, hisOf, text, hat, hpiece⟩)
      · rw [hown] at hoptions
        cases hoptions
      · -- A text at hand with a block would have had the message redirected.
        obtain ⟨block, hblock⟩ := decidingBlock_of_atHand hat hpiece
        have htarget : target? (settingsBy message s.settings) (unwrap message s).message
            = .ok (some target) := by
          rw [hsettings, hunwrap]
          exact hisOf.target?_eq
        have hresult := (incoming_redirected htarget hblock hok).result
        rw [hkept.result, hunwrap] at hresult
        cases hresult
    · refine iff_of_false (by rw [hredirected.result]; nofun) (not_not_intro (.inr ?_))
      have hisOf := hredirects.isOf
      rw [hsettings, hunwrap] at hisOf
      exact ⟨target, hisOf, exists_atHand hredirects.decides⟩

theorem incoming_ne {out : Members} (hok : (incoming extractor message s).2 = .ok (some out)) :
    out ≠ message := by
  rcases incoming_cases hok with hkept | ⟨target, block, generated, hredirects, hredirected⟩
  · have hresult := hkept.result
    cases hown : ownOptions? message with
    | none =>
      rw [unwrap_of_no_options hown s] at hresult
      cases hresult
    | some own =>
      obtain ⟨hchanged, hne⟩ := unwrap_of_options hown s
      rw [hchanged] at hresult
      rwa [Option.some.inj hresult]
  · exact hredirected.ne hredirects

/-- All but the records of a session is as it was. -/
structure SameState (s s' : Session) : Prop where
  settings : s'.settings = s.settings
  ledger : s'.ledger = s.ledger
  uris : s'.uris = s.uris
  files : s'.files = s.files

/-- A message of the editor that stays as it is leaves nothing behind. -/
theorem incoming_sameState (hok : (incoming extractor message s).2 = .ok none) :
    SameState s (incoming extractor message s).1 := by
  have hown : ownOptions? message = none := by
    by_contra hsome
    exact (incoming_none_iff hok).mp rfl (.inl (Option.isSome_iff_ne_none.mpr hsome))
  rcases incoming_cases hok with hkept | ⟨target, block, generated, -, hredirected⟩
  · refine ⟨?_, hkept.ledger, hkept.uris, hkept.files⟩
    rw [hkept.settings, settingsBy, hown]
  · cases hredirected.result

/-! ## Messages of the server -/

/-- A component is found for a URI. -/
def Resolves (s : Session) (uri : Text) : Prop :=
  ∃ component, (s.uris.toComponent s.settings s.files uri).outcome = .ok (some component)

/-- The URI of the document that a message is about, as it stands. -/
def documentUri? (message : Members) : Option Text :=
  ((subject message).member? "uri").bind Json.text?

theorem documentUri?_eq_some_iff {uri : Text} :
    documentUri? message = some uri ↔ (subject message).member? "uri" = some (.str uri) := by
  unfold documentUri?
  cases (subject message).member? "uri" with
  | none => exact iff_of_false nofun nofun
  | some v => cases v <;> simp [Json.text?]

/-- The component of a document is looked up under its URI. -/
theorem relocateKey_subject (settings : Settings) (files : FileTree) (message : Members) :
    relocateKey settings files (subject message) = match documentUri? message with
      | some uri => some <$> relocateUri settings files uri
      | none => pure none := by
  unfold relocateKey
  split
  · rename_i uri huri
    rw [documentUri?_eq_some_iff.mpr huri]
  · rename_i hother
    cases hdocument : documentUri? message with
    | none => rfl
    | some uri => exact absurd (documentUri?_eq_some_iff.mp hdocument) (hother uri)

/-- The proxy has a part in a message of the server: a component is found for some URI in what it is
about, or some line number anywhere in it moves. -/
def Touched (message : Members) (s : Session) : Prop :=
  (∃ uri ∈ (subject message).uris, Resolves s uri) ∨
    (Json.obj message).HasLine fun n =>
      Json.movedLine (messageOffset (documentUri? message) message s) n ≠ n

/-- A message of the server that is adapted is another one. -/
theorem outgoing_ne {out : Members} (hok : (outgoing message s).2 = .ok (some out)) :
    out ≠ message := by
  rw [outgoing_eq] at hok
  split at hok
  · cases hok
  · rename_i key relocated _
    have hsettlement := settlement_settle message key relocated (translate message s).1
    generalize settle message key relocated (translate message s).1 = result at hsettlement hok
    cases hsettlement with
    | unknown | unmoved => cases hok
    | moved =>
      dsimp only at hok
      split at hok
      · cases hok
      · rename_i hne
        obtain rfl := Option.some.inj (Except.ok.inj hok)
        exact hne

section Walk

open Relocation

theorem still_of_not_resolves {uri : Text} (h : ¬ Resolves s uri) :
    Still s.settings s.files (fun _ => True) s.uris uri := by
  cases houtcome : (s.uris.toComponent s.settings s.files uri).outcome with
  | error e => exact .inr ⟨e, trivial, houtcome⟩
  | ok component? =>
    cases component? with
    | none => exact .inl houtcome
    | some component => exact absurd ⟨component, houtcome⟩ h

theorem Quiet.eq_of_run {α : Type} {fails : Fault → Prop} {known : UriMap}
    {x : Relocation α} {a b : α} {log : Log} {st' : UriMap × Log} (hx : Quiet fails known x a)
    (hrun : x.run.run (known, log) = (.ok b, st')) : b = a ∧ st'.1 = known := by
  rcases hx log with ⟨log', hok⟩ | ⟨e, -, herror⟩
  · rw [hok] at hrun
    cases hrun
    exact ⟨rfl, rfl⟩
  · rw [hrun] at herror
    cases herror

/-- If nothing is found for the URIs in a message, the URI of its document stays. -/
theorem relocateKey_quiet (h : ∀ uri ∈ (subject message).uris, ¬ Resolves s uri) :
    Quiet (fun _ => True) s.uris (relocateKey s.settings s.files (subject message))
      (documentUri? message) := by
  rw [relocateKey_subject]
  cases huri : documentUri? message with
  | none => exact .pure none
  | some uri =>
    have hmem := Json.mem_uris_of_member? (documentUri?_eq_some_iff.mp huri)
    exact (quiet_relocateUri (still_of_not_resolves (h uri hmem))).map some

/-- A message that is about something stays if that is put in its place. -/
theorem set_subject (h : subject message ≠ .null) :
    Json.set (subjectName message) (subject message) message = message := by
  refine Json.set_eq_self ?_
  unfold subject at h ⊢
  cases hget : Json.get? (subjectName message) message with
  | none =>
    rw [hget] at h
    exact absurd rfl h
  | some about => rfl

/-- If nothing is found for the URIs in a message, the message and the URI of its document stay. -/
theorem translate_of_not_resolves {key : Option Text} {relocated : Members}
    (hkeyed : (subject message).Keyed) (h : ∀ uri ∈ (subject message).uris, ¬ Resolves s uri)
    (htranslate : (translate message s).2 = .ok (key, relocated)) :
    key = documentUri? message ∧ relocated = message := by
  obtain ⟨⟨known, log⟩, st', hkey, hsubject⟩ := translate_run htranslate
  obtain ⟨rfl, rfl⟩ := Quiet.eq_of_run (relocateKey_quiet h) hkey
  refine ⟨rfl, ?_⟩
  rw [relocateSubject_eq] at hsubject
  split at hsubject
  · cases hsubject
    rfl
  · rename_i hnull
    obtain ⟨about, hrun, rfl⟩ := run_map_ok hsubject
    -- The subject is looked up in the map that the document left, which is the one of before.
    have hquiet := relocate_quiet (subject message) (callDepth_le_of_run hrun) hkeyed
      fun uri huri => still_of_not_resolves (h uri huri)
    obtain ⟨rfl, -⟩ := Quiet.eq_of_run hquiet hrun
    exact set_subject hnull

/-- Looking the document of a message up leaves a map of the two kinds, and if nothing is found for
its URI in that map, the map is the one of before. -/
theorem relocateKey_known {about : Json} {key : Option Text} {known : UriMap} {log : Log}
    (hkind : s.uris.ByKind)
    (hrun : (relocateKey s.settings s.files about).run.run (s.uris, []) = (.ok key, known, log)) :
    known.ByKind ∧ (Missed s.settings s.files known about.uris → known = s.uris) := by
  unfold relocateKey at hrun
  split at hrun
  · rename_i uri huri
    rw [map_eq_pure_bind] at hrun
    obtain ⟨found, st, hlookup, ⟨⟩⟩ := run_bind_ok hrun
    rw [relocateUri_run] at hlookup
    obtain ⟨houtcome, hst⟩ := Prod.mk.inj hlookup
    obtain ⟨rfl, -⟩ := Prod.mk.inj hst
    refine ⟨(hkind.lookedUp (UriMap.toComponent_cases s.settings s.files s.uris uri)).1, ?_⟩
    intro hmissed
    have hagain := hmissed uri (Json.mem_uris_of_member? huri)
    rcases hfound : (s.uris.toComponent s.settings s.files uri).outcome with e | _ | component
    · rw [hfound] at houtcome
      cases houtcome
    · exact UriMap.map_of_missed hfound
    · exact absurd hagain (UriMap.not_missed_again hfound)
  · cases hrun
    exact ⟨hkind, fun _ => rfl⟩

/-- If a message is the same with its URIs replaced and its lines moved, then nothing was found for
the URIs in it. -/
theorem not_resolves_of_same {key : Option Text} {relocated : Members} {offset : Int}
    (hkind : s.uris.ByKind) (htranslate : (translate message s).2 = .ok (key, relocated))
    (hsame : Json.shiftMembers offset relocated = message) :
    ∀ uri ∈ (subject message).uris, ¬ Resolves s uri := by
  obtain ⟨⟨known, log⟩, ⟨later, log'⟩, hkey, hsubject⟩ := translate_run htranslate
  obtain ⟨hknown, hback⟩ := relocateKey_known hkind hkey
  rw [relocateSubject_eq] at hsubject
  split at hsubject
  · rename_i hnull
    rw [hnull]
    nofun
  obtain ⟨about, hrun, rfl⟩ := run_map_ok hsubject
  have habout : Json.shiftMember offset (subjectName message) about = subject message := by
    have hget := congrArg (Json.get? (subjectName message)) hsame
    rw [Json.shiftMembers_set, Json.get?_set, if_pos rfl] at hget
    rw [subject, ← hget, Option.getD_some]
  obtain ⟨-, hmissed⟩ := relocate_idle hknown s.limits.relocating offset (subjectName message)
    (subject message) log about _ _ hrun habout
  rw [hback hmissed] at hmissed
  rintro uri huri ⟨component, hfound⟩
  rw [hmissed uri huri] at hfound
  cases hfound

end Walk

/-- A message of the server stays as it is exactly if the proxy has no part in it. -/
theorem outgoing_none_iff {result : Option Members} (hkind : s.uris.ByKind)
    (hkeyed : (subject message).Keyed) (hok : (outgoing message s).2 = .ok result) :
    result = none ↔ ¬ Touched message s := by
  rcases outgoing_cases message s with
    ⟨e, herror, -⟩ | ⟨key, relocated, adapted, htranslate, hadapted, hmoved⟩
  · rw [herror] at hok
    cases hok
  rw [hadapted] at hok
  obtain rfl := Except.ok.inj hok
  have hlines : (∀ uri ∈ (subject message).uris, ¬ Resolves s uri) →
      (Json.shiftMembers (messageOffset key message s) relocated = message ↔
        ¬ (Json.obj message).HasLine fun n =>
          Json.movedLine (messageOffset (documentUri? message) message s) n ≠ n) := by
    intro hnothing
    obtain ⟨rfl, rfl⟩ := translate_of_not_resolves hkeyed hnothing htranslate
    rw [← Json.shiftLines_eq_self_iff, Json.shiftLines_obj, Json.obj.injEq]
  have hnone : adapted = none ↔
      Json.shiftMembers (messageOffset key message s) relocated = message := by
    rw [← (moveLines_eq_ok_iff.mp hmoved).2]
    cases adapted with
    | none => exact iff_of_true rfl rfl
    | some out => exact iff_of_false nofun (outgoing_ne hadapted)
  rw [hnone, Touched, not_or]
  simp only [not_exists, not_and]
  constructor
  · intro hsame
    have hnothing := not_resolves_of_same hkind htranslate hsame
    exact ⟨hnothing, (hlines hnothing).mp hsame⟩
  · rintro ⟨hnothing, hstill⟩
    exact (hlines hnothing).mpr hstill

/-! ## Bodies -/

/-- A body passes as the very same bytes exactly if it is no message or the proxy has no part in it.
Else another message comes out. -/
structure Faithful (s : Session) (part : Members → Prop) (body bytes : List UInt8) : Prop where
  same_iff : bytes = body ↔ ∀ message, s.decode body = .object message → ¬ part message
  differs : bytes ≠ body → ∃ message out, s.decode body = .object message ∧
    s.decode bytes = .object out ∧ out ≠ message

/-- The adaptation of a body, if it is a message, does not fail. -/
def Unfailing (adapt : Members → Session → Session × Except Fault (Option Members))
    (body : List UInt8) (s : Session) : Prop :=
  ∀ message, s.decode body = .object message → ∃ result, (adapt message s).2 = .ok result

/-- What comes out for a message that is adapted is read as the adapted message. -/
theorem decode_of_pass {adapt : Members → Session → Session × Except Fault (Option Members)}
    {failure : Members → LogRecord} {body bytes : List UInt8} {adapted : Option Members}
    (hbody : s.decode body = .object message) (hok : (adapt message s).2 = .ok adapted)
    (hreadable : (Json.obj (adapted.getD message)).Readable s.limits.reading)
    (hbytes : (pass adapt failure body s).2 = .ok bytes) :
    s.decode bytes = .object (adapted.getD message) := by
  rw [pass_object hbody, hok] at hbytes
  cases adapted with
  | none =>
    obtain rfl := Except.ok.inj hbytes
    exact hbody
  | some out =>
    dsimp only at hbytes
    cases hencode : Message.encode out with
    | error e =>
      rw [hencode] at hbytes
      cases hbytes
    | ok bytes' =>
      rw [hencode] at hbytes
      obtain rfl := Except.ok.inj hbytes
      exact Message.decode_encode hreadable hencode

/-- A way through the session is faithful if it leaves alone just the messages that have no part
in the files, and if what it makes of the others is another message and can be read back. -/
theorem faithful_of_adapt {adapt : Members → Session → Session × Except Fault (Option Members)}
    {failure : Members → LogRecord} {body bytes : List UInt8} {part : Members → Prop}
    (hok : Unfailing adapt body s)
    (hnone : ∀ message result, s.decode body = .object message →
      (adapt message s).2 = .ok result → (result = none ↔ ¬ part message))
    (hsome : ∀ message out, s.decode body = .object message →
      (adapt message s).2 = .ok (some out) →
        out ≠ message ∧ (Json.obj out).Readable s.limits.reading)
    (hbytes : (pass adapt failure body s).2 = .ok bytes) : Faithful s part body bytes := by
  cases hbody : s.decode body with
  | object message =>
    obtain ⟨result, hresult⟩ := hok message hbody
    have hpart := hnone message result hbody hresult
    cases result with
    | none =>
      rw [pass_object hbody, hresult] at hbytes
      obtain rfl := Except.ok.inj hbytes
      refine ⟨iff_of_true rfl ?_, fun hne => absurd rfl hne⟩
      intro message' hmessage'
      rw [hbody, Message.Body.object.injEq] at hmessage'
      exact hmessage' ▸ hpart.mp rfl
    | some out =>
      obtain ⟨hne, hreadable⟩ := hsome message out hbody hresult
      have hout := decode_of_pass hbody hresult hreadable hbytes
      rw [Option.getD_some] at hout
      have hchanged : bytes ≠ body := by
        rintro rfl
        rw [hbody, Message.Body.object.injEq] at hout
        exact hne hout.symm
      refine ⟨iff_of_false hchanged fun hall => ?_, fun _ => ⟨message, out, hbody, hout, hne⟩⟩
      exact absurd (hpart.mpr (hall message hbody)) (Option.some_ne_none out)
  | other | undecodable _ =>
    rw [pass, hbody] at hbytes
    obtain rfl := Except.ok.inj hbytes
    refine ⟨iff_of_true rfl fun message hmessage => ?_, fun hne => absurd rfl hne⟩
    rw [hbody] at hmessage
    cases hmessage
  | beyondLimits e =>
    rw [pass, hbody] at hbytes
    cases hbytes

theorem faithful_fromEditor {body bytes : List UInt8} (hok : Unfailing (incoming extractor) body s)
    (hbytes : (fromEditor extractor body s).2 = .ok bytes) :
    Faithful s (Concerns extractor · s) body bytes := by
  refine faithful_of_adapt hok (fun message result _ => incoming_none_iff) ?_ hbytes
  intro message out hbody hresult
  exact ⟨incoming_ne hresult, incoming_readable (Message.readable_of_decode hbody) hresult⟩

theorem faithful_fromServer {body bytes : List UInt8} (hkind : s.uris.ByKind)
    (hok : Unfailing outgoing body s) (hbytes : (fromServer body s).2 = .ok bytes) :
    Faithful s (Touched · s) body bytes := by
  refine faithful_of_adapt hok ?_ ?_ hbytes
  · intro message result hbody hresult
    refine outgoing_none_iff hkind ?_ hresult
    unfold subject
    cases hget : Json.get? (subjectName message) message with
    | none => trivial
    | some about =>
      have hreadable := Message.readable_of_decode hbody
      obtain ⟨below, hdepth⟩ := hreadable.depth_eq
      rw [hdepth] at hreadable
      exact Json.keyed_of_readable about (hreadable.get? hget)
  · intro message out hbody hresult
    exact ⟨outgoing_ne hresult, outgoing_readable (Message.readable_of_decode hbody) hresult⟩

/-- A body of the editor that passes as it came leaves nothing behind but records. -/
theorem fromEditor_sameState {body : List UInt8} (hok : Unfailing (incoming extractor) body s)
    (hbytes : (fromEditor extractor body s).2 = .ok body) :
    SameState s (fromEditor extractor body s).1 := by
  have hfaithful := faithful_fromEditor hok hbytes
  cases hbody : s.decode body with
  | object message =>
    obtain ⟨result, hresult⟩ := hok message hbody
    obtain rfl := (incoming_none_iff hresult).mpr (hfaithful.same_iff.mp rfl message hbody)
    rw [fromEditor, pass_session hbody, hresult]
    exact incoming_sameState hresult
  | other | undecodable _ | beyondLimits _ =>
    rw [fromEditor, pass, hbody]
    exact ⟨rfl, rfl, rfl, rfl⟩

/-- **Which bodies pass unchanged.** After every run from the start, let a body come from the editor
or from the server, and let nothing fail. It passes as the very same bytes exactly if it is no
message or the proxy has no part in it; from the editor, it then leaves nothing behind. Else what
comes out is read as another message than what came in. -/
theorem bodies_pass_unchanged_iff (extractor : Extractor) (turns : List Turn) (settings : Settings)
    (files : FileTree) (limits : Limits) (body : List UInt8) :
    let s := after extractor turns (start settings files limits)
    (∀ bytes, Unfailing (incoming extractor) body s →
      (fromEditor extractor body s).2 = .ok bytes →
        Faithful s (Concerns extractor · s) body bytes ∧
          (bytes = body → SameState s (fromEditor extractor body s).1)) ∧
    ∀ bytes, Unfailing outgoing body s → (fromServer body s).2 = .ok bytes →
      Faithful s (Touched · s) body bytes := by
  intro s
  refine ⟨fun bytes hok hbytes => ⟨faithful_fromEditor hok hbytes, ?_⟩, fun bytes hok hbytes => ?_⟩
  · rintro rfl
    exact fromEditor_sameState hok hbytes
  · exact faithful_fromServer (byKind_after extractor turns settings files limits) hok hbytes

/-- If other bytes come out than came in, nothing has failed. -/
theorem unfailing_of_ne {adapt : Members → Session → Session × Except Fault (Option Members)}
    {failure : Members → LogRecord} {body bytes : List UInt8}
    (hbytes : (pass adapt failure body s).2 = .ok bytes) (hne : bytes ≠ body) :
    Unfailing adapt body s := by
  intro message hbody
  rw [pass_object hbody] at hbytes
  cases hadapt : (adapt message s).2 with
  | error e =>
    rw [hadapt] at hbytes
    exact absurd (Except.ok.inj hbytes).symm hne
  | ok result => exact ⟨result, rfl⟩

/-- A component is opened, and the server speaks of the generated file of one that is on disk. Both
come out as other messages. -/
theorem bodies_pass_unchanged_iff_component :
    ∃ opened answer s out back,
      opened = Utf8.ofString ("\x7b\"method\":\"x\",\"params\":\x7b\"textDocument\":"
        ++ "\x7b\"uri\":\"file:///src/B.vue\",\"text\":\"<script lang=gleam>x</script>\""
        ++ "\x7d\x7d\x7d") ∧
      answer = Utf8.ofString
        "\x7b\"id\":1,\"result\":\x7b\"uri\":\"file:///src/gen/a.gleam\"\x7d\x7d" ∧
      s = after (.ofLang "gleam") []
        (start ⟨⟨.root, []⟩, "src", "gen", "gleam", "gleam", 8⟩
          ⟨[], [(["src"], .directory), (["src", "A.vue"], .file [] false)]⟩) ∧
      ((fromEditor (.ofLang "gleam") opened s).2 = .ok out ∧ out ≠ opened ∧
        (fromServer answer s).2 = .ok back ∧ back ≠ answer) ∧
      Unfailing (incoming (.ofLang "gleam")) opened s ∧ Unfailing outgoing answer s ∧
      Faithful s (Concerns (.ofLang "gleam") · s) opened out ∧
      Faithful s (Touched · s) answer back := by
  refine ⟨_, _, _, Utf8.ofString ("\x7b\"method\":\"x\",\"params\":\x7b\"textDocument\":"
      ++ "\x7b\"uri\":\"file:///src/gen/b.gleam\",\"text\":\"x\"\x7d\x7d\x7d"),
    Utf8.ofString "\x7b\"id\":1,\"result\":\x7b\"uri\":\"file:///src/A.vue\"\x7d\x7d",
    rfl, rfl, rfl, (and_iff_left_of_imp ?_).mpr ?_⟩
  · rintro ⟨hout, hne, hback, hneBack⟩
    have hok := unfailing_of_ne hout hne
    have hokBack := unfailing_of_ne hback hneBack
    exact ⟨hok, hokBack, ((bodies_pass_unchanged_iff _ _ _ _ _ _).1 _ hok hout).1,
      (bodies_pass_unchanged_iff _ _ _ _ _ _).2 _ hokBack hback⟩
  · simp only [Utf8.ofString_append, Utf8.ofString_ofList, Text.ofString_ofList]
    decide +kernel

/-- The server names a file `uri` among those that it changes, and puts the URI of a generated file
where the edits should be. That URI is not looked up, and the message passes as it came. -/
theorem uri_among_changes_passes :
    ∃ answer s message uri,
      answer = Utf8.ofString ("\x7b\"id\":1,\"result\":\x7b\"changes\":"
        ++ "\x7b\"uri\":\"file:///src/gen/a.gleam\"\x7d\x7d\x7d") ∧
      s = after (.ofLang "gleam") []
        (start ⟨⟨.root, []⟩, "src", "gen", "gleam", "gleam", 8⟩
          ⟨[], [(["src"], .directory), (["src", "A.vue"], .file [] false)]⟩) ∧
      s.decode answer = .object message ∧ (subject message).Mentions uri ∧ Resolves s uri ∧
      (outgoing message s).2 = .ok none ∧ (fromServer answer s).2 = .ok answer := by
  refine ⟨_, _, [(Text.ofString "id", .int 1), (Text.ofString "result", .obj [
    (Text.ofString "changes", .obj [
      (Text.ofString "uri", .str "file:///src/gen/a.gleam")])])], "file:///src/gen/a.gleam",
    rfl, rfl, ?_, ?_, ⟨"file:///src/A.vue", ?_⟩, ?_⟩
  · decide +kernel
  · exact .member List.mem_cons_self (.field List.mem_cons_self (by decide))
  · decide +kernel
  · decide +kernel

end Session

end SfcProxy
