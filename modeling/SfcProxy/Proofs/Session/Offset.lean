import SfcProxy.Proofs.Session.Run

/-!
# The offset of a message from the server

All lines of a message move by one offset, which the ledger holds for the document that the message
is about or else for the request that it answers. A message that edits several documents moves the
edits of all of them by that offset, and the edits of a document come to their own position exactly
if the ledger holds the same offset for it. Likewise, a result in a document that the ledger does
not know moves by the offset of the request.

## Main definitions

* `messageOffset`: the offset by which the lines of a message move
* `ownOffset`: the offset of the component behind a URI
* `answeredOffset`: the offset of the request that a message answers
* `Refused`: a message cannot be adapted
* `MovedAsOne`: what goes out is the message with all its lines moved by one offset
* `MovedByRequest`: what goes out is moved by the offset of the request

## Main results

* `outgoing_cases`: a message cannot be adapted, or its lines move by its offset
* `outgoing_moves_as_one`: one offset for all edits of a message
* `unrecorded_result_offset`: the offset of a result in a document without one
-/

namespace SfcProxy

namespace Json

/-! ## Members at their places -/

theorem getElem?_shiftMembers (offset : Int) {members : Members} {i : Nat} {name : Text} {v : Json}
    (h : members[i]? = some (name, v)) (hname : name ≠ "line") :
    (shiftMembers offset members)[i]? = some (name, v.shiftLines offset) := by
  rw [shiftMembers, getElem?_mapMembersList, h, Option.map_some,
    (onlyLines_movedLine? offset).name hname, Option.getD_none, shiftLines_eq_mapMembers]

end Json

namespace Session

/-! ## The offset -/

/-- The offset by which the lines of a message move: the one that the ledger holds for a document,
or else for the request that the message answers, or else zero. -/
def messageOffset (key : Option Text) (message : Members) (s : Session) : Int :=
  (s.ledger.held? key (requestOrigin message) ((Json.get? "id" message).getD .null)).getD 0

/-- The offset that the ledger holds for the component behind a URI; zero if there is none. -/
def ownOffset (uri : Text) (s : Session) : Int :=
  match (s.uris.toComponent s.settings s.files uri).outcome with
  | .ok (some component) => (s.ledger.get? (.document component)).getD 0
  | _ => 0

theorem Sound.getD_get?_nonneg {s : Session} (h : Sound s) (key : LedgerKey) :
    0 ≤ (s.ledger.get? key).getD 0 := by
  cases hget : s.ledger.get? key with
  | none => exact Int.le_refl 0
  | some offset => exact h.offsets _ (Lru.mem_of_get? hget)

theorem Sound.messageOffset_nonneg {s : Session} (h : Sound s) (key : Option Text)
    (message : Members) : 0 ≤ messageOffset key message s := by
  unfold messageOffset
  cases hheld : s.ledger.held? key (requestOrigin message) ((Json.get? "id" message).getD .null) with
  | none => exact Int.le_refl 0
  | some offset =>
    obtain ⟨found, hmem⟩ := Ledger.mem_of_held? hheld
    exact h.offsets _ hmem

theorem Sound.ownOffset_nonneg {s : Session} (h : Sound s) (uri : Text) : 0 ≤ ownOffset uri s := by
  unfold ownOffset
  split
  · exact h.getD_get?_nonneg _
  · exact Int.le_refl 0

/-- A message cannot be adapted, because a URI in it cannot be looked up, or its id is none, or its
lines cannot be moved by its offset. -/
def Refused (message : Members) (s : Session) : Prop :=
  ∃ e, (outgoing message s).2 = .error e ∧ ((translate message s).2 = .error e ∨
    (∃ idError, RequestId.ofJson ((Json.get? "id" message).getD .null) = .error idError ∧
      e = .ledger (.id idError)) ∨
    ∃ key relocated, (translate message s).2 = .ok (key, relocated) ∧
      s.Unmovable (messageOffset key message s) relocated e)

/-- A message cannot be adapted, or it comes to the message with component URIs and with its lines
moved by its offset. -/
theorem outgoing_cases (message : Members) (s : Session) :
    Refused message s ∨ ∃ key relocated adapted, (translate message s).2 = .ok (key, relocated) ∧
      (outgoing message s).2 = .ok adapted ∧
      s.moveLines (messageOffset key message s) relocated = .ok (adapted.getD message) := by
  unfold Refused
  rw [outgoing_eq]
  cases htranslate : (translate message s).2 with
  | error e => exact .inl ⟨e, rfl, .inl rfl⟩
  | ok found =>
    obtain ⟨key, relocated⟩ := found
    have hoffset {offset : Option Int} {ledger : Ledger} (hlookup :
        s.ledger.lookup key (requestOrigin message) ((Json.get? "id" message).getD .null)
          = .ok (offset, ledger)) : offset.getD 0 = messageOffset key message s := by
      rw [(Ledger.lookup_spec hlookup).1, messageOffset]
    have hsettlement := settlement_settle message key relocated (translate message s).1
    dsimp only
    generalize settle message key relocated (translate message s).1 = result at hsettlement ⊢
    cases hsettlement with
    | unknown lookup_eq =>
      obtain ⟨idError, hid, rfl⟩ := Ledger.lookup_error lookup_eq
      exact .inl ⟨_, rfl, .inr (.inl ⟨idError, hid, rfl⟩)⟩
    | unmoved lookup_eq unmovable =>
      rw [hoffset lookup_eq] at unmovable
      exact .inl ⟨_, rfl, .inr (.inr ⟨key, relocated, rfl, unmovable.of_limits rfl⟩)⟩
    | moved lookup_eq moved_eq =>
      rw [hoffset lookup_eq] at moved_eq ⊢
      refine .inr ⟨key, relocated, _, rfl, rfl, ?_⟩
      rw [show s.moveLines _ relocated = _ from moved_eq]
      split
      · rename_i hsame
        rw [hsame, Option.getD_none]
      · rw [Option.getD_some]

/-! ## Edits of several documents -/

/-- What goes out is the message with component URIs and with all its lines moved by its offset,
and it makes no difference which of the two is done first. So the edits that stand under a name move
by that offset wherever they are. If there is a line among them, they come to where the offset of
their own component would bring them exactly if the two offsets are the same. -/
structure MovedAsOne (message : Members) (s : Session) (key : Option Text) (out : Members) :
    Prop where
  nonneg : 0 ≤ messageOffset key message s
  moved_after : ∃ relocated, (translate message s).2 = .ok (key, relocated) ∧
    Json.obj out = (Json.obj relocated).shiftLines (messageOffset key message s) ∧
    Json.LinesMoved (messageOffset key message s) (.obj relocated) (.obj out)
  moved_before : (translate (Json.shiftMembers (messageOffset key message s) message) s).2
    = .ok (key, out)
  edits : ∀ (path : List Nat) (members : Members) (i : Nat) (uri : Text) (v : Json),
    (Json.obj message).place? path = some (.obj members) → members[i]? = some (uri, v) →
      uri ≠ "line" → ∃ moved : Members,
        (Json.obj (Json.shiftMembers (messageOffset key message s) message)).place? path
            = some (.obj moved) ∧
          moved[i]? = some (uri, v.shiftLines (messageOffset key message s))
  own_iff : ∀ (uri : Text) (v : Json), v.HasLine Json.IsRow →
    (v.shiftLines (messageOffset key message s) = v.shiftLines (ownOffset uri s) ↔
      messageOffset key message s = ownOffset uri s)

/-- **One offset for all edits of a message.** After every run from the start, a message of the
server cannot be adapted, or what goes out has all its lines moved by the offset of the message,
also those of edits to other documents. -/
theorem outgoing_moves_as_one (extractor : Extractor) (turns : List Turn) (settings : Settings)
    (files : FileTree) (limits : Limits) (message : Members) :
    let s := after extractor turns (start settings files limits)
    Refused message s ∨ ∃ key adapted, (outgoing message s).2 = .ok adapted ∧
      MovedAsOne message s key (adapted.getD message) := by
  intro s
  have hsound : Sound s := sound_after extractor turns settings files limits
  rcases outgoing_cases message s with herror | ⟨key, relocated, adapted, htranslate, hok, hmoved⟩
  · exact .inl herror
  have hout := (moveLines_eq_ok_iff.mp hmoved).2
  refine .inr ⟨key, adapted, hok, hsound.messageOffset_nonneg key message, ?_, ?_, ?_, ?_⟩
  · have hlines : Json.obj (adapted.getD message)
        = (Json.obj relocated).shiftLines (messageOffset key message s) := by
      rw [Json.shiftLines_obj, hout]
    exact ⟨relocated, htranslate, hlines, hlines ▸ Json.linesMoved_shiftLines _ _⟩
  -- relocation does not touch lines, so the lines may as well move first
  · rw [(translate_shiftMembers hsound.uris _ message).1, htranslate, hout]
    rfl
  · intro path members i uri v hplace hmember hname
    have hmoved := Json.place?_shiftLines (messageOffset key message s) hplace
    rw [Json.shiftLines_obj] at hmoved
    exact ⟨_, hmoved, Json.getElem?_shiftMembers _ hmember hname⟩
  · intro uri v hrow
    refine ⟨?_, fun heq => by rw [heq]⟩
    exact Json.shiftLines_injective hrow (hsound.messageOffset_nonneg key message)
      (hsound.ownOffset_nonneg uri)

/-- A request about a component whose block starts one line down is answered with edits to it, to a
component whose block starts two lines down and to a plain file. All of them move by one line. -/
theorem edits_not_at_own_position :
    ∃ s, s = after (.ofLang "gleam")
        [.editor (Utf8.ofString ("\x7b\"id\":1,\"method\":\"textDocument/rename\",\"params\":\x7b"
          ++ "\"textDocument\":\x7b\"uri\":\"file:///src/A.vue\","
          ++ "\"text\":\"\\n<script lang=gleam>x</script>\"\x7d\x7d\x7d")),
        .editor (Utf8.ofString ("\x7b\"method\":\"textDocument/didOpen\",\"params\":\x7b"
          ++ "\"textDocument\":\x7b\"uri\":\"file:///src/B.vue\","
          ++ "\"text\":\"\\n\\n<script lang=gleam>x</script>\"\x7d\x7d\x7d"))]
        (start ⟨⟨.root, []⟩, "src", "gen", "gleam", "gleam", 8⟩ (.empty [])) ∧
      ownOffset "file:///src/gen/a.gleam" s = 1 ∧ ownOffset "file:///src/gen/b.gleam" s = 2 ∧
      ownOffset "file:///src/c.gleam" s = 0 ∧
      (fromServer (Utf8.ofString ("\x7b\"id\":1,\"result\":\x7b\"changes\":"
          ++ "\x7b\"file:///src/gen/a.gleam\":[\x7b\"line\":0\x7d],"
          ++ "\"file:///src/gen/b.gleam\":[\x7b\"line\":0\x7d],"
          ++ "\"file:///src/c.gleam\":[\x7b\"line\":0\x7d]\x7d\x7d\x7d")) s).2
        = .ok (Utf8.ofString ("\x7b\"id\":1,\"result\":\x7b\"changes\":"
          ++ "\x7b\"file:///src/A.vue\":[\x7b\"line\":1\x7d],"
          ++ "\"file:///src/B.vue\":[\x7b\"line\":1\x7d],"
          ++ "\"file:///src/c.gleam\":[\x7b\"line\":1\x7d]\x7d\x7d\x7d")) := by
  refine ⟨_, rfl, ?_⟩
  simp only [Utf8.ofString_append, Utf8.ofString_ofList, Text.ofString_ofList]
  decide +kernel

/-! ## Results in other documents -/

/-- The offset that the ledger holds for the request of the editor that a message answers; zero if
there is none. -/
def answeredOffset (message : Members) (s : Session) : Int :=
  ((RequestId.ofJson ((Json.get? "id" message).getD .null)).toOption.join.bind fun id =>
    s.ledger.get? (.request .editor id)).getD 0

theorem messageOffset_of_unrecorded {message : Members} {s : Session} {uri : Text}
    (hresponse : isResponse message = true)
    (hunrecorded : s.ledger.get? (.document uri) = none) :
    messageOffset (some uri) message s = answeredOffset message s := by
  have hdocument : (Ledger.documentKey? (some uri)).bind s.ledger.get? = none := by
    cases uri with
    | nil => rfl
    | cons u rest => exact hunrecorded
  rw [messageOffset, Ledger.held?, hdocument, Option.none_or, requestOrigin, if_pos hresponse,
    Option.bind_map, answeredOffset]
  rfl

/-- The document that a message is looked up under is found first of all. -/
theorem translate_key {message relocated : Members} {s : Session} {key : Option Text}
    (h : (translate message s).2 = .ok (key, relocated)) :
    ((relocateKey s.settings s.files (subject message)).run.run (s.uris, [])).1 = .ok key := by
  obtain ⟨st, st', hkey, -⟩ := translate_run h
  rw [hkey]

/-- A message about a document that no component stands behind keeps the URI of that document. -/
theorem translate_key_of_unresolved {message relocated : Members} {s : Session} {key : Option Text}
    (htranslate : (translate message s).2 = .ok (key, relocated)) {uri : Text}
    (huri : (subject message).member? "uri" = some (.str uri))
    (hunresolved : (s.uris.toComponent s.settings s.files uri).outcome = .ok none) :
    key = some uri := by
  have hkey := translate_key htranslate
  rw [relocateKey, huri] at hkey
  dsimp only at hkey
  rw [map_eq_pure_bind, Relocation.run_bind, relocateUri_run, hunresolved] at hkey
  exact (Except.ok.inj hkey).symm

/-- What goes out for a response about a document is the response with component URIs and with its
lines moved by the offset of the request that it answers. So its lines stay where they are exactly
if that offset moves none of them. -/
def MovedByRequest (message : Members) (s : Session) (uri : Text) : Prop :=
  ∃ relocated adapted, (translate message s).2 = .ok (some uri, relocated) ∧
    (outgoing message s).2 = .ok adapted ∧
    Json.obj (adapted.getD message) = (Json.obj relocated).shiftLines (answeredOffset message s) ∧
    Json.LinesMoved (answeredOffset message s) (.obj relocated) (.obj (adapted.getD message)) ∧
    (adapted.getD message = relocated ↔
      ¬ (Json.obj relocated).HasLine fun n => Json.movedLine (answeredOffset message s) n ≠ n)

/-- **The offset of a result in a document without one.** After every run from the start, let a
response name a document that no component stands behind and that the ledger holds no offset for.
It cannot be adapted, or its lines move by the offset of the request that it answers. -/
theorem unrecorded_result_offset {extractor : Extractor} {turns : List Turn} {settings : Settings}
    {files : FileTree} {limits : Limits} {s : Session}
    (hs : s = after extractor turns (start settings files limits))
    {message : Members} (hresponse : isResponse message = true) {uri : Text}
    (huri : (subject message).member? "uri" = some (.str uri))
    (hunresolved : (s.uris.toComponent s.settings s.files uri).outcome = .ok none)
    (hunrecorded : s.ledger.get? (.document uri) = none) :
    0 ≤ answeredOffset message s ∧ (Refused message s ∨ MovedByRequest message s uri) := by
  have hsound : Sound s := hs ▸ sound_after extractor turns settings files limits
  have hoffset := messageOffset_of_unrecorded hresponse hunrecorded
  refine ⟨hoffset ▸ hsound.messageOffset_nonneg (some uri) message, ?_⟩
  rcases outgoing_cases message s with herror | ⟨key, relocated, adapted, htranslate, hok, hmoved⟩
  · exact .inl herror
  have hout := (moveLines_eq_ok_iff.mp hmoved).2
  obtain rfl := translate_key_of_unresolved htranslate huri hunresolved
  rw [hoffset] at hout
  have hmoved : Json.obj (adapted.getD message)
      = (Json.obj relocated).shiftLines (answeredOffset message s) := by
    rw [Json.shiftLines_obj, hout]
  refine .inr ⟨relocated, adapted, htranslate, hok, hmoved, ?_, ?_⟩
  · rw [hmoved]
    exact Json.linesMoved_shiftLines _ _
  · rw [← Json.shiftLines_eq_self_iff, ← hmoved, Json.obj.injEq]

/-- A definition in a plain file, asked for from a component whose block starts one line down: line
five of the file becomes line six. -/
theorem unrecorded_result_offset_plain :
    ∃ (turns : List Turn) (s : Session) (message : Members),
      s = after (.ofLang "gleam") turns
        (start ⟨⟨.root, []⟩, "src", "gen", "gleam", "gleam", 8⟩ (.empty [])) ∧
      (isResponse message = true ∧
        (subject message).member? "uri" = some (.str "file:///src/b.gleam") ∧
        (s.uris.toComponent s.settings s.files "file:///src/b.gleam").outcome = .ok none ∧
        s.ledger.get? (.document "file:///src/b.gleam") = none ∧ answeredOffset message s = 1 ∧
        Message.encode message = .ok (Utf8.ofString
          "\x7b\"id\":1,\"result\":\x7b\"uri\":\"file:///src/b.gleam\",\"line\":5\x7d\x7d") ∧
        (outgoing message s).2.toOption.join.bind (fun out => (Message.encode out).toOption)
          = some (Utf8.ofString
            "\x7b\"id\":1,\"result\":\x7b\"uri\":\"file:///src/b.gleam\",\"line\":6\x7d\x7d")) ∧
      0 ≤ answeredOffset message s ∧
        (Refused message s ∨ MovedByRequest message s "file:///src/b.gleam") := by
  refine ⟨[.editor (Utf8.ofString ("\x7b\"id\":1,\"method\":\"textDocument/definition\","
      ++ "\"params\":\x7b\"textDocument\":\x7b\"uri\":\"file:///src/A.vue\","
      ++ "\"text\":\"\\n<script lang=gleam>x</script>\"\x7d\x7d\x7d"))],
    _, [(Text.ofString "id", .int 1), (Text.ofString "result",
      .obj [(Text.ofString "uri", .str "file:///src/b.gleam"), (Text.ofString "line", .int 5)])],
    rfl, (and_iff_left_of_imp ?_).mpr ?_⟩
  · rintro ⟨hresponse, huri, hunresolved, hunrecorded, -⟩
    exact unrecorded_result_offset rfl hresponse huri hunresolved hunrecorded
  · simp only [Utf8.ofString_append, Utf8.ofString_ofList, Text.ofString_ofList]
    decide +kernel

end Session

end SfcProxy
