import SfcProxy.Proofs.Json.Path
import SfcProxy.Proofs.Session.Offset

/-!
# Ids of the server pick no offset

Both sides number their requests, and the numbers overlap. Offsets are recorded under the ids of the
editor alone, so a request of the server never finds one under its own id, whatever the editor has
asked for under the same id. What goes out for it depends on its id in one place only: the id
itself. Its lines move by the offset of the document that it names, or not at all.

## Main definitions

* `NoServerKey`: the ledger holds nothing under an id of the server
* `forwarded`: the message that goes out for a message of the server
* `documentOffset`: the offset that the ledger holds for a document
* `ownId`: the id of a message
* `RecordedFor`: the ledger holds an offset for the document that a message names

## Main results

* `noServerKey_after`: no run records anything under an id of the server
* `translate_set_id`: the id has no part in the translation of a message
* `forwarded_eq`: what goes out for a request of the server
* `server_ids_pick_no_offset`: the three together
-/

namespace SfcProxy.Session

/-! ## The keys of the ledger -/

/-- The ledger holds nothing under an id of the server. -/
def NoServerKey (s : Session) : Prop :=
  ∀ entry ∈ s.ledger, ∀ id, entry.1 ≠ .request .server id

namespace NoServerKey

variable {s : Session} {extractor : Extractor}

/-- What a message of the editor records stands under a document or an id of the editor. -/
theorem enter (h : NoServerKey s) (plan : Plan) : NoServerKey (Session.enter plan s).1 := by
  cases plan with
  | keep changed => exact h
  | redirect target block seen message =>
    rw [enter_eq]
    intro entry hentry id
    rcases Ledger.mem_record hentry with ⟨hentry, -⟩ | ⟨-, -, hdocument | ⟨own, hrequest⟩⟩
    · exact h entry hentry id
    · intro hkey
      rw [hkey] at hdocument
      unfold Ledger.documentKey? at hdocument
      split at hdocument <;> cases hdocument
    · rw [hrequest]
      nofun

theorem incoming (h : NoServerKey s) (message : Members) :
    NoServerKey (Session.incoming extractor message s).1 := by
  have hprepared : NoServerKey (prepare extractor message s).1 := by
    unfold NoServerKey
    rw [(prepare_spec extractor message s).1]
    exact h
  rw [incoming_eq]
  split
  · exact hprepared
  · rename_i plan _
    split
    · exact hprepared.enter plan
    · unfold NoServerKey
      rw [conclude_ledger]
      exact hprepared.enter plan

theorem outgoing (h : NoServerKey s) (message : Members) :
    NoServerKey (Session.outgoing message s).1 :=
  fun entry hentry => h entry (mem_ledger_of_outgoing hentry)

theorem pass (h : NoServerKey s)
    {adapt : Members → Session → Session × Except Fault (Option Members)}
    (hadapt : ∀ message, NoServerKey (adapt message s).1) (failure : Members → LogRecord)
    (body : List UInt8) : NoServerKey (Session.pass adapt failure body s).1 := by
  unfold NoServerKey
  rw [pass_ledger]
  split
  · rename_i message _
    exact hadapt message
  · exact h

theorem turn (h : NoServerKey s) (t : Turn) : NoServerKey (Session.turn extractor s t) := by
  cases t with
  | editor body => exact h.pass h.incoming incomingFailure body
  | server body => exact h.pass h.outgoing outgoingFailure body
  | files tree => exact h

end NoServerKey

theorem noServerKey_after (extractor : Extractor) (turns : List Turn) (settings : Settings)
    (files : FileTree) (limits : Limits) :
    NoServerKey (after extractor turns (start settings files limits)) :=
  after_induction (fun _ t h => h.turn t) turns nofun

/-! ## The id in the translation -/

section SetId

variable {id : Json} {message : Members}

theorem isResponse_set_id (id : Json) (message : Members) :
    isResponse (Json.set "id" id message) = isResponse message := by
  rw [isResponse, Json.has, Json.get?_set, if_neg (by decide), isResponse, Json.has]

theorem subjectName_set_id (id : Json) (message : Members) :
    subjectName (Json.set "id" id message) = subjectName message := by
  rw [subjectName, isResponse_set_id, subjectName]

theorem subjectName_ne_id (message : Members) : subjectName message ≠ "id" := by
  unfold subjectName
  split <;> decide

theorem subject_set_id (id : Json) (message : Members) :
    subject (Json.set "id" id message) = subject message := by
  rw [subject, subjectName_set_id, Json.get?_set, if_neg (subjectName_ne_id message), subject]

theorem relocateSubject_set_id (settings : Settings) (files : FileTree) (calls : Nat) (id : Json)
    (message : Members) : relocateSubject settings files calls (Json.set "id" id message)
      = Json.set "id" id <$> relocateSubject settings files calls message := by
  rw [relocateSubject_eq, relocateSubject_eq, subject_set_id, subjectName_set_id]
  split
  · rw [map_pure]
  · rename_i hnull
    have hsome : (Json.get? (subjectName message) message).isSome := by
      rw [subject] at hnull
      cases hget : Json.get? (subjectName message) message with
      | none => exact absurd (by rw [hget, Option.getD_none]) hnull
      | some about => rfl
    rw [Functor.map_map]
    congr 1
    funext about
    exact Json.set_comm (subjectName_ne_id message) hsome about id

/-- The id has no part in the translation of a message. -/
theorem translate_set_id (id : Json) (message : Members) (s : Session) :
    translate (Json.set "id" id message) s
      = ((translate message s).1, (translate message s).2.map fun (key, relocated) =>
          (key, Json.set "id" id relocated)) := by
  have hwalk : relocateMessage s.settings s.files s.limits.relocating (Json.set "id" id message)
      = (fun (key, relocated) => (key, Json.set "id" id relocated))
        <$> relocateMessage s.settings s.files s.limits.relocating message := by
    rw [relocateMessage, relocateMessage, subject_set_id, relocateSubject_set_id]
    simp only [map_bind, bind_map_left, map_pure]
  simp only [translate]
  rw [hwalk, map_eq_pure_bind, Relocation.run_bind]
  rcases (relocateMessage s.settings s.files s.limits.relocating message).run.run (s.uris, []) with
    ⟨e | a, st⟩ <;> rfl

/-- A message keeps its id when it is translated. -/
theorem get?_id_of_translate {message relocated : Members} {s : Session} {key : Option Text}
    (h : (translate message s).2 = .ok (key, relocated)) :
    Json.get? "id" relocated = Json.get? "id" message := by
  obtain ⟨st, st', -, hsubject⟩ := translate_run h
  rw [relocateSubject_eq] at hsubject
  split at hsubject
  · cases hsubject
    rfl
  · obtain ⟨about, -, rfl⟩ := Relocation.run_map_ok hsubject
    rw [Json.get?_set, if_neg (subjectName_ne_id message).symm]

/-- An id does not nest. -/
theorem depth_of_isId (hid : IsId id) : id.depth = 0 := by
  obtain ⟨id?, hid⟩ := hid
  cases id with
  | arr items => cases hid
  | obj members => cases hid
  | null | bool _ | int _ | real _ | str _ => rfl

theorem shiftMembers_set_id (hid : IsId id) (offset : Int) (message : Members) :
    Json.shiftMembers offset (Json.set "id" id message)
      = Json.set "id" id (Json.shiftMembers offset message) := by
  have hkept : Json.shiftMember offset "id" id = id := by
    have hdepth := depth_of_isId hid
    rw [Json.shiftMember_of_ne (by decide)]
    cases id with
    | arr items => cases hdepth
    | obj members => cases hdepth
    | null | bool _ | int _ | real _ | str _ => simp [Json.mapMembers]
  rw [Json.shiftMembers_set, hkept]

end SetId

/-! ## What goes out -/

/-- The message that goes out for a message of the server: what it is adapted to, or the message
itself. -/
def forwarded (message : Members) (s : Session) : Members :=
  match (outgoing message s).2 with
  | .ok adapted => adapted.getD message
  | .error _ => message

/-- The offset that the ledger holds for a document; zero if there is none. -/
def documentOffset (key : Option Text) (s : Session) : Int :=
  ((Ledger.documentKey? key).bind s.ledger.get?).getD 0

variable {s : Session} {message : Members}

theorem NoServerKey.messageOffset_eq (h : NoServerKey s) (hmethod : isResponse message = false)
    (key : Option Text) : messageOffset key message s = documentOffset key s := by
  have hrequest : ∀ id? : Option RequestId,
      (id?.map (LedgerKey.request .server)).bind s.ledger.get? = none := by
    intro id?
    cases id? with
    | none => rfl
    | some id =>
      cases hget : s.ledger.get? (.request .server id) with
      | none => exact hget
      | some offset => exact absurd rfl (h _ (Lru.mem_of_get? hget) id)
  rw [messageOffset, Ledger.held?, requestOrigin, hmethod, if_neg (by decide), hrequest,
    Option.or_none, documentOffset]

/-- The id of a message; null if it has none. -/
def ownId (message : Members) : Json :=
  (Json.get? "id" message).getD .null

/-- What goes out for a request of the server, unless its id is none and it passes as it came. A
message whose lines cannot be moved passes as it came, too. -/
theorem forwarded_eq (h : NoServerKey s) (hmethod : isResponse message = false) :
    (forwarded message s = match (translate message s).2 with
      | .ok (key, relocated) => (s.moveLines (documentOffset key s) relocated).toOption.getD message
      | .error _ => message) ∨ ¬ IsId (ownId message) ∧ forwarded message s = message := by
  unfold forwarded
  rcases outgoing_cases message s with
    ⟨e, herror, htranslate | ⟨idError, hid, -⟩ | ⟨key, relocated, htranslate, hunmovable⟩⟩ |
      ⟨key, relocated, adapted, htranslate, hok, hmoved⟩
  · rw [herror, htranslate]
    exact .inl rfl
  · rw [herror]
    refine .inr ⟨?_, rfl⟩
    rintro ⟨id?, hid?⟩
    rw [ownId, hid] at hid?
    cases hid?
  · rw [h.messageOffset_eq hmethod] at hunmovable
    rw [herror, htranslate]
    dsimp only
    rcases moveLines_cases s (documentOffset key s) relocated with ⟨e', -, hmoved⟩ | hmoved
    · rw [hmoved]
      exact .inl rfl
    · exact absurd hunmovable ((moveLines_eq_ok_iff.mp hmoved).1 e)
  · rw [h.messageOffset_eq hmethod] at hmoved
    rw [hok, htranslate]
    dsimp only
    rw [hmoved]
    exact .inl rfl

/-- Another id changes the id and nothing else. -/
theorem forwarded_set_id (h : NoServerKey s) (hmethod : isResponse message = false) {id : Json}
    (hid : IsId id) :
    forwarded (Json.set "id" id message) s = Json.set "id" id (forwarded message s) ∨
      ¬ IsId (ownId message) ∧ forwarded message s = message := by
  have hset : IsId (ownId (Json.set "id" id message)) := by
    rwa [ownId, Json.get?_set, if_pos rfl, Option.getD_some]
  have hmethod' : isResponse (Json.set "id" id message) = false := by rwa [isResponse_set_id]
  have hother := (forwarded_eq h hmethod').resolve_right fun hnone => hnone.1 hset
  rw [translate_set_id] at hother
  refine (forwarded_eq h hmethod).elim (fun hown => ?_) .inr
  cases htranslate : (translate message s).2 with
  | error e =>
    rw [htranslate] at hother hown
    exact .inl (by rw [hother, hown]; rfl)
  | ok found =>
    obtain ⟨key, relocated⟩ := found
    rw [htranslate] at hother hown
    dsimp only [Except.map] at hother hown
    rcases moveLines_cases s (documentOffset key s) relocated with ⟨e, hunmovable, hmoved⟩ | hmoved
    · rw [hmoved] at hown
      by_cases hownId : IsId (ownId message)
      · -- with either id there is the same in the way
        have hold : ∀ old, Json.get? "id" relocated = some old → old.depth = 0 := by
          intro old hget
          rw [get?_id_of_translate htranslate] at hget
          rw [ownId, hget] at hownId
          exact depth_of_isId hownId
        rcases moveLines_cases s (documentOffset key s) (Json.set "id" id relocated) with
          ⟨e', -, hmoved'⟩ | hmoved'
        · rw [hmoved'] at hother
          exact .inl (by rw [hother, hown]; rfl)
        · exact absurd (hunmovable.set (by decide) hold) ((moveLines_eq_ok_iff.mp hmoved').1 e)
      · exact .inr ⟨hownId, hown⟩
    · have hmoved' : s.moveLines (documentOffset key s) (Json.set "id" id relocated)
          = .ok (Json.set "id" id (Json.shiftMembers (documentOffset key s) relocated)) := by
        refine moveLines_eq_ok_iff.mpr ⟨fun e he => ?_, (shiftMembers_set_id hid _ _).symm⟩
        exact (moveLines_eq_ok_iff.mp hmoved).1 e (he.of_set (by decide) (depth_of_isId hid))
      rw [hmoved] at hown
      rw [hmoved'] at hother
      exact .inl (by rw [hother, hown]; rfl)

/-- The ledger holds an offset for the document that a message names in its parameters: for the
component behind its URI, or for the URI itself if there is none. -/
def RecordedFor (message : Members) (s : Session) (offset : Int) : Prop :=
  ∃ uri component?, (Json.obj message).follow? [.member "params", .member "uri"] = some (.str uri) ∧
    (s.uris.toComponent s.settings s.files uri).outcome = .ok component? ∧
    s.ledger.get? (.document (component?.getD uri)) = some offset

theorem shiftMembers_zero (members : Members) : Json.shiftMembers 0 members = members :=
  Json.mapMembersList_none members

/-- The document of a request of the server is named in its parameters. -/
theorem follow?_of_subject (hmethod : isResponse message = false) {uri : Text}
    (h : (subject message).member? "uri" = some (.str uri)) :
    (Json.obj message).follow? [.member "params", .member "uri"] = some (.str uri) := by
  rw [subject, subjectName, hmethod, if_neg (by decide)] at h
  rw [Json.follow?]
  cases hparams : Json.get? "params" message with
  | none =>
    rw [hparams] at h
    cases h
  | some params =>
    rw [hparams, Option.getD_some] at h
    cases params with
    | obj members =>
      rw [Option.bind_some, Json.follow?, show Json.get? "uri" members = some (.str uri) from h]
      rfl
    | null | bool _ | int _ | real _ | str _ | arr _ => cases h

theorem recordedFor_of_ne_zero (hmethod : isResponse message = false) {key : Option Text}
    {relocated : Members} (htranslate : (translate message s).2 = .ok (key, relocated))
    (hoffset : documentOffset key s ≠ 0) : RecordedFor message s (documentOffset key s) := by
  have hkey := translate_key htranslate
  rw [relocateKey] at hkey
  split at hkey
  · rename_i uri huri
    rw [map_eq_pure_bind, Relocation.run_bind, relocateUri_run] at hkey
    cases houtcome : (s.uris.toComponent s.settings s.files uri).outcome with
    | error e =>
      rw [houtcome] at hkey
      cases hkey
    | ok component? =>
      rw [houtcome] at hkey
      obtain rfl : some (component?.getD uri) = key := Except.ok.inj hkey
      refine ⟨uri, component?, follow?_of_subject hmethod huri, houtcome, ?_⟩
      unfold documentOffset at hoffset ⊢
      by_cases hnil : component?.getD uri = []
      · rw [hnil] at hoffset
        exact absurd rfl hoffset
      · rw [Ledger.documentKey?_of_ne_nil hnil, Option.bind_some] at hoffset ⊢
        cases hget : s.ledger.get? (.document (component?.getD uri)) with
        | none =>
          rw [hget] at hoffset
          exact absurd rfl hoffset
        | some offset => rfl
  · obtain rfl : none = key := Except.ok.inj hkey
    exact absurd rfl hoffset

/-- What goes out is the message itself, or the message with component URIs, which has the same
lines. Only then may they move, by the offset of the document that the message names. -/
def MovedByDocument (message : Members) (s : Session) : Prop :=
  forwarded message s = message ∨ ∃ key relocated,
    (translate message s).2 = .ok (key, relocated) ∧
      (∀ offset, (translate (Json.shiftMembers offset message) s).2
        = .ok (key, Json.shiftMembers offset relocated)) ∧
      (forwarded message s = relocated ∨ ∃ offset, RecordedFor message s offset ∧
        forwarded message s = Json.shiftMembers offset relocated)

theorem movedByDocument (h : NoServerKey s) (hfiles : UriMap.OfFiles s.uris)
    (hmethod : isResponse message = false) : MovedByDocument message s := by
  unfold MovedByDocument
  rcases outgoing_cases message s with
    ⟨e, herror, -⟩ | ⟨key, relocated, adapted, htranslate, hok, hmoved⟩
  · refine .inl ?_
    rw [forwarded, herror]
  · have hout := (moveLines_eq_ok_iff.mp hmoved).2
    refine .inr ⟨key, relocated, htranslate, fun offset => ?_, ?_⟩
    · rw [(translate_shiftMembers hfiles offset message).1, htranslate]
      rfl
    rw [forwarded, hok]
    dsimp only
    rw [hout, h.messageOffset_eq hmethod]
    by_cases hoffset : documentOffset key s = 0
    · rw [hoffset, shiftMembers_zero]
      exact .inl rfl
    · exact .inr ⟨_, recordedFor_of_ne_zero hmethod htranslate hoffset, rfl⟩

/-- **Ids of the server pick no offset.** After every run from the start, the ledger holds nothing
under an id of the server. So a request of the server with another id goes out the same but for the
id, and its lines move only by an offset that is recorded for the document that it names. A request
whose own id is none, which is an array or an object, may pass as it came. -/
theorem server_ids_pick_no_offset {extractor : Extractor} {turns : List Turn} {settings : Settings}
    {files : FileTree} {limits : Limits}
    (hs : s = after extractor turns (start settings files limits))
    (hmethod : Json.has "method" message = true) :
    NoServerKey s ∧
      (∀ id, IsId id →
        forwarded (Json.set "id" id message) s = Json.set "id" id (forwarded message s) ∨
          ¬ IsId (ownId message) ∧ forwarded message s = message) ∧
      MovedByDocument message s := by
  have hkeys : NoServerKey s := hs ▸ noServerKey_after extractor turns settings files limits
  have hrequest : isResponse message = false := by
    rw [isResponse, hmethod]
    rfl
  exact ⟨hkeys, fun _ hid => forwarded_set_id hkeys hrequest hid,
    movedByDocument hkeys (hs ▸ sound_after extractor turns settings files limits).uris hrequest⟩

/-- The ledger holds an offset for the first request of the editor. The first request of the server,
about a plain file, keeps its lines. -/
theorem server_ids_pick_no_offset_same_id :
    ∃ (turns : List Turn) (s : Session) (message : Members),
      turns = [.editor (Utf8.ofString ("\x7b\"id\":1,\"method\":\"x\",\"params\":\x7b"
        ++ "\"textDocument\":\x7b\"uri\":\"file:///src/A.vue\","
        ++ "\"text\":\"\\n<script lang=gleam>x</script>\"\x7d\x7d\x7d"))] ∧
      s = after (.ofLang "gleam") turns
        (start ⟨⟨.root, []⟩, "src", "gen", "gleam", "gleam", 8⟩ (.empty [])) ∧
      message = [(Text.ofString "id", .int 1), (Text.ofString "method", .str "y"),
        (Text.ofString "params", .obj [(Text.ofString "uri", .str "file:///src/b.gleam"),
          (Text.ofString "line", .int 5)])] ∧
      Json.has "method" message = true ∧ s.ledger.get? (.request .editor (.integer 1)) = some 1 ∧
      forwarded message s = message ∧ NoServerKey s ∧
      forwarded (Json.set "id" (.int 2) message) s = Json.set "id" (.int 2) message ∧
      MovedByDocument message s := by
  refine ⟨_, _, _, rfl, rfl, rfl, by decide, ?_⟩
  generalize hs : after _ _ _ = s
  generalize hmessage : [(Text.ofString "id", _), _, _] = message
  have hmethod : Json.has "method" message = true := by
    subst hmessage
    decide
  have hown : IsId (ownId message) := by
    subst hmessage
    exact ⟨_, rfl⟩
  have hfacts : s.ledger.get? (.request .editor (.integer 1)) = some 1 ∧
      forwarded message s = message := by
    subst hs hmessage
    simp only [Utf8.ofString_append, Utf8.ofString_ofList, Text.ofString_ofList]
    decide +kernel
  obtain ⟨hkeys, hblind, hmoved⟩ := server_ids_pick_no_offset hs.symm hmethod
  refine ⟨hfacts.1, hfacts.2, hkeys, ?_, hmoved⟩
  rw [(hblind (.int 2) ⟨_, rfl⟩).resolve_right fun hnone => hnone.1 hown, hfacts.2]

end SfcProxy.Session
