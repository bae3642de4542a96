import SfcProxy.Proofs.Session.Trace

/-!
# What a redirected message does

A message about a component with a deciding block leaves five things in agreement: the message that
is forwarded, the offset of the document, the offset of the request, the way back from the generated
file, and the file itself. All of them come from the one block, and a bound that leaves room for two
entries keeps what the message itself has written.

Line numbers are moved wherever they stand in the message, but for two places that do not go out:
the changes to the document, which are replaced, and the proxy's own options, which are taken out.

## Main definitions

* `Effect`: what a redirected message leaves and what is forwarded

## Main results

* `follow?_redirect`, `follow?_uriPath_redirect`: the numbers and the URI in a redirected message
* `incoming_redirected`: the session after the message, field by field
* `redirected_effect`: all that a redirected message does
-/

namespace SfcProxy.Session

variable {extractor : Extractor} {message : Members} {s : Session} {target : Target}
  {block : ScriptBlock} {settings : Settings}

/-! ## The redirected message -/

/-- A text is no number, and no path leads into it. -/
theorem follow?_str_ne_int {text : Text} {path : List Json.Step} {n : Int} :
    (Json.str text).follow? path ≠ some (.int n) := by
  cases path with
  | nil => simp [Json.follow?]
  | cons step path => cases step <;> simp [Json.follow?]

/-- A redirected document has another URI, and another text if it has one. -/
theorem redirectDocument_cases (extractor : Extractor) (target : Target) (block : ScriptBlock) :
    redirectDocument extractor target block
        = Json.set "uri" (.str target.generated) target.document ∨
      ∃ text text', Json.get? "text" target.document = some (.str text) ∧
        redirectDocument extractor target block = Json.set "text" (.str text')
          (Json.set "uri" (.str target.generated) target.document) := by
  unfold redirectDocument
  dsimp only
  split
  · exact .inl rfl
  · rename_i text htext
    obtain ⟨v, hv, hstr⟩ := Option.bind_eq_some_iff.mp htext
    cases v with
    | str v => exact .inr ⟨v, _, hv, rfl⟩
    | null | bool _ | int _ | real _ | arr _ | obj _ => cases hstr

theorem follow?_redirectDocument {path : List Json.Step} {n : Int}
    (huri : Json.get? "uri" target.document = some (.str target.uri))
    (h : (Json.obj target.document).follow? path = some (.int n)) :
    (Json.obj (redirectDocument extractor target block)).follow? path = some (.int n) := by
  have hdocument : (Json.obj (Json.set "uri" (.str target.generated) target.document)).follow? path
      = some (.int n) :=
    Json.follow?_set_int huri h fun _ _ hstr => absurd hstr follow?_str_ne_int
  rcases redirectDocument_cases extractor target block with hsame | ⟨text, text', htext, hset⟩
  · rw [hsame]
    exact hdocument
  · rw [hset]
    refine Json.follow?_set_int (v := .str text) ?_ hdocument
      fun _ _ hstr => absurd hstr follow?_str_ne_int
    rw [Json.get?_set, if_neg (by decide), htext]

/-- Numbers outside the changes stay where they are when a message is redirected. -/
theorem follow?_redirect {path : List Json.Step} {n : Int} (htarget : target.IsOf settings message)
    (h : (Json.obj message).follow? path = some (.int n)) (hpath : ¬ changesPath <+: path) :
    (Json.obj (redirect extractor target block message)).follow? path = some (.int n) := by
  refine Json.follow?_set_int htarget.params h ?_
  rintro rest rfl h
  have hparams : (Json.obj (Json.set "textDocument"
      (.obj (redirectDocument extractor target block)) target.params)).follow? rest
        = some (.int n) := by
    refine Json.follow?_set_int htarget.document h ?_
    rintro rest rfl h
    exact follow?_redirectDocument htarget.uri h
  split
  · rename_i items hchanges
    refine Json.follow?_set_int hchanges hparams ?_
    rintro rest rfl -
    exact absurd ⟨rest, rfl⟩ hpath
  · exact hparams

/-- A redirected message names the generated file. -/
theorem follow?_uriPath_redirect (offset : Int) :
    (Json.obj (Json.shiftMembers offset (redirect extractor target block message))).follow? uriPath
      = some (.str target.generated) := by
  have huri : Json.get? "uri" (redirectDocument extractor target block)
      = some (.str target.generated) := by
    rcases redirectDocument_cases extractor target block with hsame | ⟨text, text', -, hset⟩
    · rw [hsame, Json.get?_set, if_pos rfl]
    · rw [hset, Json.get?_set, if_neg (by decide), Json.get?_set, if_pos rfl]
  have hdocument : (Json.obj (redirect extractor target block message)).follow?
      [.member "params", .member "textDocument"]
        = some (.obj (redirectDocument extractor target block)) := by
    unfold redirect
    rw [Json.follow?_set, if_pos rfl]
    split
    · rw [Json.follow?_set, if_neg (by decide), Json.follow?_set, if_pos rfl, Json.follow?]
    · rw [Json.follow?_set, if_pos rfl, Json.follow?]
  have hsplit : uriPath = [.member "params", .member "textDocument"] ++ [.member "uri"] := rfl
  rw [hsplit, Json.follow?_append, ← Json.shiftLines_obj, Json.follow?_shiftLines offset hdocument,
    Option.bind_some, Json.follow?, Json.get?_shiftMembers offset (by decide), huri]
  simp [Json.follow?, Json.shiftLines_eq_mapMembers, Json.mapMembers]

/-! ## The session after the message -/

theorem conclude_kept (extractor : Extractor) (target : Target) (block : ScriptBlock)
    (seen : List Text) (message : Members) (s : Session) :
    (conclude extractor (.redirect target block seen message) s).1.settings = s.settings ∧
      (conclude extractor (.redirect target block seen message) s).1.files = s.files ∧
      (conclude extractor (.redirect target block seen message) s).1.uris
        = (s.uris.register s.settings target.generated target.uri).map := by
  obtain ⟨⟨log, hconcluded⟩, -⟩ := conclude_spec extractor target block seen message s
  rw [hconcluded]
  exact ⟨rfl, rfl, rfl⟩

/-- The session after a redirected message, field by field, and what is forwarded. -/
structure Redirected (extractor : Extractor) (message : Members) (s : Session) (target : Target)
    (block : ScriptBlock) (result : Option Members) : Prop where
  settings : (incoming extractor message s).1.settings = settingsBy message s.settings
  recorded : (s.ledger.record s.settings.maxTracked block.lineOffset (some target.uri) .editor
    (requestId message)).2 = none
  ledger : (incoming extractor message s).1.ledger = (s.ledger.record s.settings.maxTracked
    block.lineOffset (some target.uri) .editor (requestId message)).1
  uris : (incoming extractor message s).1.uris = (s.uris.register (settingsBy message s.settings)
    target.generated target.uri).map
  files : ∃ generated log,
    GeneratedFile.ofComponent? (settingsBy message s.settings) target.path = some generated ∧
      Materialized s.files target.path generated (Utf8.encodeChars block.sourceText)
        (incoming extractor message s).1.files (.ok log)
  result : result = some (Json.shiftMembers (-block.lineOffset)
    (redirect extractor target block (unwrap message s).message))

theorem plan_of_ok {result : Option Members}
    (htarget : target? (settingsBy message s.settings) (unwrap message s).message
      = .ok (some target))
    (hblock : decidingBlock extractor s.files target = .ok (some block))
    (hok : (incoming extractor message s).2 = .ok result) :
    ∃ seen, (prepare extractor message s).2
      = .ok (.redirect target block seen (unwrap message s).message) := by
  rw [← unwrap_settings] at htarget
  have hplan := planFor_of_target extractor (unwrap message s).changed htarget
  rw [← prepare_eq, (unwrap_kept message s).2, hblock] at hplan
  dsimp only at hplan
  split at hplan
  · rw [incoming_eq, hplan] at hok
    cases hok
  · exact hplan

theorem incoming_redirected {result : Option Members}
    (htarget : target? (settingsBy message s.settings) (unwrap message s).message
      = .ok (some target))
    (hblock : decidingBlock extractor s.files target = .ok (some block))
    (hok : (incoming extractor message s).2 = .ok result) :
    Redirected extractor message s target block result := by
  obtain ⟨seen, hplan⟩ := plan_of_ok htarget hblock hok
  obtain ⟨hsettings, hledger, huris⟩ := prepare_kept extractor message s
  have hprepared := prepare_cases extractor message s
  rw [hplan] at hprepared
  have hincoming := incoming_eq extractor message s
  rw [hplan] at hincoming
  dsimp only at hincoming
  rw [enter_eq, hsettings, hledger, settingsBy_maxTracked, requestId_unwrap] at hincoming
  dsimp only at hincoming
  cases hrecord : (s.ledger.record s.settings.maxTracked block.lineOffset (some target.uri)
      .editor (requestId message)).2 with
  | some refusal =>
    rw [hrecord] at hincoming
    rw [hincoming] at hok
    cases hok
  | none =>
    rw [hrecord] at hincoming
    dsimp only at hincoming
    generalize hentered : Session.mk _ _ _ _ _ _ = entered at hincoming
    obtain ⟨hconcluded, hfiles, hregistered⟩ := conclude_kept extractor target block seen
      (unwrap message s).message entered
    rw [hincoming] at hok
    refine ⟨?_, hrecord, ?_, ?_, ?_, eq_shiftMembers_of_conclude hok⟩
    · rw [hincoming, hconcluded, ← hentered]
    · rw [hincoming, conclude_ledger, ← hentered]
    · rw [hincoming, hregistered, ← hentered, huris]
    · rw [hincoming, hfiles, ← hentered]
      dsimp only
      generalize (prepare extractor message s).1.files = files at hprepared ⊢
      cases hprepared with
      | redirected seen hredirects hmaterialized =>
        exact ⟨_, _, hredirects.file, hmaterialized⟩

/-! ## The effect -/

/-- What a redirected message does, all of it by the one block that decides its offset. -/
structure Effect (message : Members) (s s' : Session) (target : Target) (block : ScriptBlock)
    (out : Members) : Prop where
  /-- The message is about the component, and it is forwarded about the generated file. -/
  about : (Json.obj message).follow? uriPath = some (.str target.uri)
  generated : UriMap.toGenerated? s'.settings target.uri = .ok (some target.generated)
  forwarded : (Json.obj out).follow? uriPath = some (.str target.generated)
  document : ∀ origin id, ∃ used,
    s'.ledger.lookup (some target.uri) origin id = .ok (some block.lineOffset, used)
  request : ∀ id, Json.has "method" message = true → Json.get? "id" message = some id →
    id ≠ .null → ∃ used, s'.ledger.lookup none .editor id = .ok (some block.lineOffset, used)
  back : (s'.uris.toComponent s'.settings s'.files target.generated).outcome
    = .ok (some target.uri)
  lines : ∀ path n, (Json.obj message).follow? (path ++ [.member "line"]) = some (.int n) →
    ¬ changesPath <+: path → (ownOptions? message = none ∨ ¬ optionsPath <+: path) →
    (Json.obj out).follow? (path ++ [.member "line"])
      = some (.int (if 0 ≤ n - block.lineOffset then n - block.lineOffset else n))
  file : ∃ generated, GeneratedFile.ofComponent? s'.settings target.path = some generated ∧
    (s'.files.readFile generated = .ok (Utf8.encodeChars block.sourceText) ∨
      ∃ e, WriteFails s.files generated (Utf8.encodeChars block.sourceText) e ∧
        e.isSystem = true)

/-- A line number outside of what is taken out or replaced is moved by the offset. -/
theorem Redirected.lines {out : Members}
    (h : Redirected extractor message s target block (some out))
    (htarget : target.IsOf settings (unwrap message s).message) {path : List Json.Step} {n : Int}
    (hline : (Json.obj message).follow? (path ++ [.member "line"]) = some (.int n))
    (hchanges : ¬ changesPath <+: path)
    (hoptions : ownOptions? message = none ∨ ¬ optionsPath <+: path) :
    (Json.obj out).follow? (path ++ [.member "line"])
      = some (.int (if 0 ≤ n - block.lineOffset then n - block.lineOffset else n)) := by
  -- Neither of the two places is a line number itself, so a path that is not behind one of them is
  -- not behind it with its last step either.
  have hextend : ∀ front : List Json.Step, front.getLast? ≠ some (.member "line") →
      ¬ front <+: path → ¬ front <+: path ++ [.member "line"] := by
    intro front hlast hfront hconcat
    rcases List.prefix_concat_iff.mp hconcat with rfl | hprefix
    · exact hlast (by rw [List.getLast?_concat])
    · exact hfront hprefix
  have hunwrapped := follow?_unwrap hline
    (hoptions.imp_right (hextend optionsPath (by decide))) s
  have hredirected : (Json.obj (redirect extractor target block (unwrap message s).message)).follow?
      (path ++ [.member "line"]) = some (.int n) :=
    follow?_redirect htarget hunwrapped (hextend changesPath (by decide) hchanges)
  obtain rfl := Option.some.inj h.result
  rw [← Json.shiftLines_obj, Json.follow?_line_shiftLines _ hredirected, Int.sub_eq_add_neg]

/-- The generated file holds the text of the block, unless the system refuses to write it. -/
theorem Redirected.written {result : Option Members}
    (h : Redirected extractor message s target block result) :
    ∃ generated,
      GeneratedFile.ofComponent? (settingsBy message s.settings) target.path = some generated ∧
      ((incoming extractor message s).1.files.readFile generated
          = .ok (Utf8.encodeChars block.sourceText) ∨
        ∃ e, WriteFails s.files generated (Utf8.encodeChars block.sourceText) e ∧
          e.isSystem = true) := by
  obtain ⟨generated, log, hfile, hmaterialized⟩ := h.files
  refine ⟨generated, hfile, ?_⟩
  generalize (incoming extractor message s).1.files = files at hmaterialized ⊢
  cases hmaterialized with
  | stored way stores => exact .inl stores.readFile
  | refused way fails system => exact .inr ⟨_, fails, system⟩

/-- **All that a redirected message does comes from one block.** Let a message be about a component,
let a block decide its offset, and let nothing fail. What goes out is about the generated file and
has its lines moved by the offset of the block. From then on the ledger holds that offset, the map
leads back to the component, and the generated file holds the text of the block, unless the system
refuses to write it. -/
theorem redirected_effect {body : List UInt8} {result : Option Members}
    (hbody : s.decode body = .object message) (hbound : 2 ≤ s.settings.maxTracked)
    (htarget : target? (settingsBy message s.settings) (unwrap message s).message
      = .ok (some target))
    (hblock : decidingBlock extractor s.files target = .ok (some block))
    (hok : (incoming extractor message s).2 = .ok result) :
    ∃ out, result = some out ∧
      (fromEditor extractor body s).2 = (Message.encode out).mapError .write ∧
      Effect message s (fromEditor extractor body s).1 target block out := by
  have hisOf := Target.isOf htarget
  obtain ⟨hsource, hgenerated⟩ := UriMap.hasScheme_of_toGenerated? hisOf.generated
  have hredirected := incoming_redirected htarget hblock hok
  obtain ⟨hnonneg, hvalid, -⟩ := Ledger.nonneg_of_record hredirected.recorded
  obtain rfl := hredirected.result
  refine ⟨_, rfl, ?_, ?_⟩
  · rw [fromEditor, pass_object hbody, hok]
  rw [fromEditor, pass_session hbody, hok]
  constructor
  case about => rw [← hisOf.follow?_uriPath, follow?_uriPath_unwrap]
  case generated => rw [hredirected.settings, hisOf.generated]
  case forwarded => exact follow?_uriPath_redirect _
  case document =>
    intro origin id
    refine Ledger.lookup_of_document hsource.ne_nil ?_ origin id
    rw [hredirected.ledger, Ledger.get?_record_document hbound hnonneg hsource.ne_nil]
  case request =>
    intro id hmethod hid hnull
    have hrequest : requestId message = id := by
      rw [requestId, if_pos hmethod, hid, Option.getD_some]
    rw [hrequest] at hvalid
    obtain ⟨id?, hid?⟩ := hvalid
    obtain ⟨request, rfl⟩ := Option.ne_none_iff_exists'.mp
      fun hnone => hnull (RequestId.ofJson_eq_none.mp (hnone ▸ hid?))
    refine Ledger.lookup_of_request hid? ?_
    rw [hredirected.ledger, hrequest]
    exact Ledger.get?_record_request (by omega) hnonneg _ _ hid? _
  case back =>
    rw [hredirected.uris, hredirected.settings]
    exact UriMap.toComponent_register hgenerated.ne_nil
      (by rw [settingsBy_maxTracked]; omega) _ _ _
  case lines =>
    intro path n hline hchanges hoptions
    exact hredirected.lines hisOf hline hchanges hoptions
  case file =>
    rw [hredirected.settings]
    obtain ⟨generated, log, hfile, hmaterialized⟩ := hredirected.files
    refine ⟨generated, hfile, ?_⟩
    generalize (incoming extractor message s).1.files = files at hmaterialized ⊢
    cases hmaterialized with
    | stored way stores => exact .inl stores.readFile
    | refused way fails system => exact .inr ⟨_, fails, system⟩

/-- A request about a component whose block starts one line down. -/
theorem redirected_effect_request :
    ∃ body s message,
      body = Utf8.ofString ("\x7b\"id\":1,\"method\":\"x\",\"params\":\x7b\"line\":4,"
        ++ "\"textDocument\":\x7b\"uri\":\"file:///src/A.vue\","
        ++ "\"text\":\"\\n<script lang=gleam>x</script>\"\x7d\x7d\x7d") ∧
      s = start ⟨⟨.root, []⟩, "src", "gen", "gleam", "gleam", 2⟩ (FileTree.empty []) ∧
      s.decode body = .object message ∧ 2 ≤ s.settings.maxTracked ∧ ∃ target block out,
      target? (settingsBy message s.settings) (unwrap message s).message = .ok (some target) ∧
      target.generated = "file:///src/gen/a.gleam" ∧
      decidingBlock (.ofLang "gleam") s.files target = .ok (some block) ∧ block.lineOffset = 1 ∧
      (incoming (.ofLang "gleam") message s).2 = .ok (some out) ∧
      Effect message s (fromEditor (.ofLang "gleam") body s).1 target block out := by
  refine ⟨_, _, [(Text.ofString "id", .int 1), (Text.ofString "method", .str "x"),
    (Text.ofString "params", .obj [(Text.ofString "line", .int 4), (Text.ofString "textDocument",
      .obj [(Text.ofString "uri", .str "file:///src/A.vue"),
        (Text.ofString "text", .str "\n<script lang=gleam>x</script>")])])], rfl, rfl, ?_⟩
  generalize hbody : Utf8.ofString _ = body
  generalize hs : start _ _ = s
  generalize hmessage : [(Text.ofString "id", _), _, _] = message
  have hdecode : s.decode body = .object message := by
    subst hbody hs hmessage
    simp only [Utf8.ofString_append, Utf8.ofString_ofList, Text.ofString_ofList]
    decide +kernel
  have hbound : 2 ≤ s.settings.maxTracked := by
    subst hs
    decide
  have hcheck : (target? (settingsBy message s.settings)
      (unwrap message s).message).toOption.join.any (fun target =>
        target.generated = Text.ofString "file:///src/gen/a.gleam" ∧
        (decidingBlock (.ofLang "gleam") s.files target).toOption.join.map ScriptBlock.lineOffset
          = some 1 ∧
        (incoming (.ofLang "gleam") message s).2.toOption.isSome) = true := by
    subst hs hmessage
    simp only [Text.ofString_ofList]
    decide +kernel
  obtain ⟨target, htarget, hfacts⟩ := (Option.any_eq_true _ _).mp hcheck
  obtain ⟨hgenerated, hblock, hok⟩ := of_decide_eq_true hfacts
  obtain ⟨block, hblock, hoffset⟩ := Option.map_eq_some_iff.mp hblock
  obtain ⟨result, hok⟩ := Option.isSome_iff_exists.mp hok
  have htarget := Traffic.toOption_eq_some (Option.join_eq_some_iff.mp htarget)
  have hblock := Traffic.toOption_eq_some (Option.join_eq_some_iff.mp hblock)
  have hok := Traffic.toOption_eq_some hok
  obtain ⟨out, rfl, -, heffect⟩ := redirected_effect hdecode hbound htarget hblock hok
  exact ⟨hdecode, hbound, target, block, out, htarget, hgenerated, hblock, hoffset, hok, heffect⟩

/-- The options for the proxy hold a line number. They are taken out, and the number is not
forwarded. -/
theorem own_options_not_forwarded :
    ∃ s message,
      s = start ⟨⟨.root, []⟩, "src", "gen", "gleam", "gleam", 8⟩ (FileTree.empty []) ∧
      message = [(Text.ofString "method", .str "initialize"),
        (Text.ofString "params", .obj [
          (Text.ofString "initializationOptions", .obj [(Text.ofString "vleam",
            .obj [(Text.ofString "line", .int 5)])]),
          (Text.ofString "textDocument", .obj [(Text.ofString "uri", .str "file:///src/A.vue"),
            (Text.ofString "text", .str "\n<script lang=gleam>x</script>")])])] ∧
      (Json.obj message).follow? (optionsPath ++ [.member "line"]) = some (.int 5) ∧
      ¬ changesPath <+: optionsPath ∧ ∃ target block out,
      target? (settingsBy message s.settings) (unwrap message s).message = .ok (some target) ∧
      decidingBlock (.ofLang "gleam") s.files target = .ok (some block) ∧ block.lineOffset = 1 ∧
      (incoming (.ofLang "gleam") message s).2 = .ok (some out) ∧
      (Json.obj out).follow? (optionsPath ++ [.member "line"]) = none := by
  refine ⟨_, _, rfl, rfl, by decide, by decide, ?_⟩
  generalize hs : start _ _ = s
  generalize hmessage : [(Text.ofString "method", _), _] = message
  have hcheck : (target? (settingsBy message s.settings)
      (unwrap message s).message).toOption.join.any (fun target =>
        (decidingBlock (.ofLang "gleam") s.files target).toOption.join.map ScriptBlock.lineOffset
          = some 1 ∧
        (incoming (.ofLang "gleam") message s).2.toOption.join.map (fun out =>
          (Json.obj out).follow? (optionsPath ++ [.member "line"])) = some none) = true := by
    subst hs hmessage
    simp only [Text.ofString_ofList]
    decide +kernel
  obtain ⟨target, htarget, hfacts⟩ := (Option.any_eq_true _ _).mp hcheck
  obtain ⟨hblock, hout⟩ := of_decide_eq_true hfacts
  obtain ⟨block, hblock, hoffset⟩ := Option.map_eq_some_iff.mp hblock
  obtain ⟨out, hok, hlost⟩ := Option.map_eq_some_iff.mp hout
  exact ⟨target, block, out, Traffic.toOption_eq_some (Option.join_eq_some_iff.mp htarget),
    Traffic.toOption_eq_some (Option.join_eq_some_iff.mp hblock), hoffset,
    Traffic.toOption_eq_some (Option.join_eq_some_iff.mp hok), hlost⟩

end SfcProxy.Session
