import SfcProxy.Proofs.Json.Sameness
import SfcProxy.Proofs.Session.Passage

/-!
# What a message of the editor comes to

A message of the editor is taken apart and put together again: options are taken out, members are
set, and at last the lines move everywhere. All this leaves most of a message alone. It keeps all
members in their order and all arrays at their lengths, and what it changes stands in five places:
the URI and the text of the document, the changes to it, the options, and line numbers.

A message that cannot be adapted is not changed at all, so it keeps its options, too.

## Main definitions

* `Session.MayDiffer`: what may differ between a message and what is forwarded
* `Session.Forwarded`: what becomes of a body of the editor

## Main results

* `Session.incoming_sameBut`: a message that is adapted is the same but for these places
* `Session.body_forwarded`: the same for bodies
-/

namespace SfcProxy

namespace Session

open Json (SameBut SameMembers OnLine)

variable {extractor : Extractor} {message : Members} {s : Session}

/-! ## Places -/

/-- Where a message holds the text of its document. -/
def textPath : List Json.Step :=
  [.member "params", .member "textDocument", .member "text"]

/-- Where a message holds the options of the editor. -/
def givenOptionsPath : List Json.Step :=
  [.member "params", .member "initializationOptions"]

/-- What may differ between a message and what is forwarded for it. -/
inductive MayDiffer (message : Members) : Json.Freedom
  | uri (before after : Text) : MayDiffer message uriPath (.str before) (.str after)
  | text (before after : Text) : MayDiffer message textPath (.str before) (.str after)
  | changes (before after : List Json) : MayDiffer message changesPath (.arr before) (.arr after)
  | line {path : List Json.Step} {v w : Json} (moved : OnLine path v w) :
      MayDiffer message path v w
  /-- The section for the proxy is taken out of the options, and their lines move. -/
  | options {options : Members} {w : Json} (own : (ownOptions? message).isSome)
      (kept : SameBut OnLine givenOptionsPath (keptOptions options) w) :
      MayDiffer message givenOptionsPath (.obj options) w

/-- Moving lines changes nothing that may not differ. -/
theorem sameMembers_shiftMembers (message : Members) (offset : Int) (members : Members)
    (path : List Json.Step) :
    SameMembers (MayDiffer message) path members (Json.shiftMembers offset members) :=
  (Json.sameMembers_mapMembers offset members path).imp fun _ _ ⟨hname, hvalue⟩ =>
    ⟨hname, hvalue.mono fun _ _ _ => .line⟩

/-! ## Parameters -/

/-- The parameters of a message without its options are those of the message, but for the options.
-/
theorem params_unwrap {params : Members}
    (h : Json.get? "params" (unwrap message s).message = some (.obj params)) :
    ∃ given, Json.get? "params" message = some (.obj given) ∧
      (∀ name : Text, name ≠ "initializationOptions" →
        Json.get? name params = Json.get? name given) ∧
      ∀ offset, SameMembers (MayDiffer message) [.member "params"] given
        (Json.shiftMembers offset params) := by
  rcases unwrap_cases message s with
    ⟨-, hsame⟩ | ⟨given, options, own, hgiven, hoptions, hown, hmessage, -⟩
  · rw [hsame] at h
    exact ⟨params, h, fun _ _ => rfl, fun offset => sameMembers_shiftMembers message offset _ _⟩
  · rw [hmessage, Json.get?_set, if_pos rfl, Option.some.injEq, Json.obj.injEq] at h
    subst h
    refine ⟨given, hgiven, fun name hname => by rw [Json.get?_set, if_neg hname], ?_⟩
    intro offset
    rw [Json.shiftMembers_set, Json.shiftMember_of_ne (by decide),
      ← Json.shiftLines_eq_mapMembers]
    refine (sameMembers_shiftMembers message offset given _).set hoptions ?_
    exact .free (.options (by rw [hown]; rfl) (Json.sameBut_shiftLines offset _ _))

/-- New parameters take the place of what is left without the options. -/
theorem set_params_unwrap (message : Members) (s : Session) (v : Json) :
    Json.set "params" v (unwrap message s).message = Json.set "params" v message := by
  rcases unwrap_cases message s with ⟨-, hsame⟩ | ⟨given, options, own, -, -, -, hmessage, -⟩
  · rw [hsame]
  · rw [hmessage, Json.set_set]

/-! ## Redirected messages -/

variable {settings : Settings} {target : Target} {block : ScriptBlock}

/-- The document of a redirected message has another URI and another text. -/
theorem sameMembers_redirectDocument (message : Members) (offset : Int)
    (huri : Json.get? "uri" target.document = some (.str target.uri)) :
    SameMembers (MayDiffer message) [.member "params", .member "textDocument"] target.document
      (Json.shiftMembers offset (redirectDocument extractor target block)) := by
  have hdocument : SameMembers (MayDiffer message) [.member "params", .member "textDocument"]
      target.document
      (Json.shiftMembers offset (Json.set "uri" (.str target.generated) target.document)) := by
    rw [Json.shiftMembers_set, Json.shiftMember_str]
    exact (sameMembers_shiftMembers message offset _ _).set huri (.free (.uri _ _))
  rcases redirectDocument_cases extractor target block with hsame | ⟨text, text', htext, hset⟩
  · rw [hsame]
    exact hdocument
  · rw [hset, Json.shiftMembers_set, Json.shiftMember_str]
    exact hdocument.set htext (.free (.text _ _))

/-- A redirected message has another document, other changes and no options for the proxy. -/
theorem sameMembers_redirect (offset : Int)
    (htarget : target.IsOf settings (unwrap message s).message) :
    SameMembers (MayDiffer message) [] message (Json.shiftMembers offset
      (redirect extractor target block (unwrap message s).message)) := by
  obtain ⟨given, hgiven, hsame, hparams⟩ := params_unwrap htarget.params
  have hdocument : Json.get? "textDocument" given = some (.obj target.document) := by
    rw [← hsame _ (by decide)]
    exact htarget.document
  have hset : SameMembers (MayDiffer message) [.member "params"] given
      (Json.shiftMembers offset (Json.set "textDocument"
        (.obj (redirectDocument extractor target block)) target.params)) := by
    rw [Json.shiftMembers_set, Json.shiftMember_obj]
    exact (hparams offset).set hdocument
      (sameMembers_redirectDocument message offset htarget.uri).sameBut
  unfold redirect
  dsimp only
  rw [set_params_unwrap, Json.shiftMembers_set, Json.shiftMember_obj]
  refine (sameMembers_shiftMembers message offset message []).set hgiven (SameMembers.sameBut ?_)
  split
  · rename_i items hchanges
    rw [Json.get?_set, if_neg (by decide), hsame _ (by decide)] at hchanges
    rw [Json.shiftMembers_set, Json.shiftMember_arr]
    exact hset.set hchanges (.free (.changes _ _))
  · exact hset

/-- A redirected message keeps the options that are left. -/
theorem follow?_givenOptionsPath_redirect (message : Members) :
    (Json.obj (redirect extractor target block message)).follow? givenOptionsPath
      = Json.get? "initializationOptions" target.params := by
  unfold redirect givenOptionsPath
  dsimp only
  rw [Json.follow?_set, if_pos rfl]
  have hset : Json.get? "initializationOptions" (Json.set "textDocument"
      (.obj (redirectDocument extractor target block)) target.params)
        = Json.get? "initializationOptions" target.params := by
    rw [Json.get?_set, if_neg (by decide)]
  split
  · rw [Json.follow?, Json.get?_set, if_neg (by decide), hset]
    cases Json.get? "initializationOptions" target.params <;> rfl
  · rw [Json.follow?, hset]
    cases Json.get? "initializationOptions" target.params <;> rfl

/-! ## What is forwarded -/

/-- A message that is adapted is the same but for what may differ. -/
theorem incoming_sameBut {result : Option Members}
    (hok : (incoming extractor message s).2 = .ok result) :
    SameBut (MayDiffer message) [] (.obj message) (.obj (result.getD message)) := by
  rcases incoming_cases hok with hkept | ⟨target, block, generated, hredirects, hredirected⟩
  · rw [hkept.result]
    rcases unwrap_cases message s with
      ⟨-, hsame⟩ | ⟨given, options, own, hgiven, hoptions, hown, hmessage, hchanged⟩
    · rw [hsame]
      exact .same [] _
    · rw [hchanged, Option.getD_some, hmessage]
      have hkept : SameMembers (MayDiffer message) [.member "params"] given
          (Json.set "initializationOptions" (keptOptions options) given) :=
        (SameMembers.refl given).set hoptions
          (.free (.options (by rw [hown]; rfl) (.same _ _)))
      exact ((SameMembers.refl message).set hgiven hkept.sameBut).sameBut
  · rw [hredirected.result]
    exact (sameMembers_redirect _ hredirects.isOf).sameBut

/-- The options that are forwarded are those that came in without the section for the proxy, their
lines moved. -/
def OptionsTaken (message out : Members) : Prop :=
  ∃ options left, (Json.obj message).follow? givenOptionsPath = some (.obj options) ∧
    (Json.obj out).follow? givenOptionsPath = some left ∧
    SameBut OnLine givenOptionsPath (keptOptions options) left

/-- A message with options for the proxy is forwarded without them. -/
theorem incoming_options {result : Option Members}
    (hok : (incoming extractor message s).2 = .ok result) (hown : ownOptions? message ≠ none) :
    OptionsTaken message (result.getD message) := by
  rcases unwrap_cases message s with
    ⟨hnone, -⟩ | ⟨given, options, own, hgiven, hoptions, -, hmessage, hchanged⟩
  · exact absurd hnone hown
  have hbefore : (Json.obj message).follow? givenOptionsPath = some (.obj options) := by
    simp only [givenOptionsPath, Json.follow?, hgiven, hoptions, Option.bind_some]
  rcases incoming_cases hok with hkept | ⟨target, block, generated, hredirects, hredirected⟩
  · refine ⟨options, keptOptions options, hbefore, ?_, .same _ _⟩
    rw [hkept.result, hchanged, Option.getD_some, hmessage, givenOptionsPath, Json.follow?_set,
      if_pos rfl, Json.follow?_set, if_pos rfl, Json.follow?]
  · have hparams := hredirects.isOf.params
    rw [hmessage, Json.get?_set, if_pos rfl, Option.some.injEq, Json.obj.injEq] at hparams
    refine ⟨options, (keptOptions options).shiftLines (-block.lineOffset), hbefore, ?_,
      Json.sameBut_shiftLines _ _ _⟩
    rw [hredirected.result, Option.getD_some, ← Json.shiftLines_obj,
      Json.follow?_shiftLines_of_notMem _ (by decide), follow?_givenOptionsPath_redirect, ← hparams,
      Json.get?_set, if_pos rfl, Option.map_some]

/-- The component that a message is about and its deciding block, found by evaluation. -/
theorem exists_deciding_of_any {files : FileTree}
    (h : (target? settings message).toOption.join.any (fun target =>
      (decidingBlock extractor files target).toOption.join.isSome) = true) :
    ∃ target block, target? settings message = .ok (some target) ∧
      decidingBlock extractor files target = .ok (some block) := by
  obtain ⟨target, htarget, hblock⟩ := (Option.any_eq_true _ _).mp h
  obtain ⟨block, hblock⟩ := Option.isSome_iff_exists.mp hblock
  exact ⟨target, block, Traffic.toOption_eq_some (Option.join_eq_some_iff.mp htarget),
    Traffic.toOption_eq_some (Option.join_eq_some_iff.mp hblock)⟩

/-- A body about a component with a deciding block comes out as the redirected message. -/
theorem exists_redirected {body bytes : List UInt8} {target : Target} {block : ScriptBlock}
    {result : Option Members} (hbody : s.decode body = .object message)
    (htarget : target? (settingsBy message s.settings) (unwrap message s).message
      = .ok (some target))
    (hblock : decidingBlock extractor s.files target = .ok (some block))
    (hok : (incoming extractor message s).2 = .ok result)
    (hbytes : (fromEditor extractor body s).2 = .ok bytes) :
    ∃ out, s.decode bytes = .object out ∧
      Redirected extractor message s target block (some out) := by
  have hredirected := incoming_redirected htarget hblock hok
  have hreadable := Message.readable_of_decode hbody
  obtain rfl := hredirected.result
  exact ⟨_, decode_of_pass hbody hok (incoming_readable hreadable hok) hbytes, hredirected⟩

/-- What becomes of a body of the editor. If it is no message, or one that cannot be adapted, it
passes as it came. Else what comes out is read as a message that is the same but for what may
differ, and options for the proxy are taken out. -/
inductive Forwarded (extractor : Extractor) (s : Session) (body bytes : List UInt8) : Prop
  | other (none : ∀ message, s.decode body ≠ .object message) (same : bytes = body)
  | refused {message : Members} {e : Fault} (decoded : s.decode body = .object message)
      (failure : (incoming extractor message s).2 = .error e) (same : bytes = body)
  | adapted {message out : Members} (decoded : s.decode body = .object message)
      (forwarded : s.decode bytes = .object out)
      (rest : SameBut (MayDiffer message) [] (.obj message) (.obj out))
      (options : ownOptions? message ≠ none → OptionsTaken message out)

/-- **What a message of the editor comes to.** In every session, a body of the editor that passes
comes out as it came in but for five places: the URI and the text of its document, the changes to
it, the options for the proxy, and line numbers. -/
theorem body_forwarded {body bytes : List UInt8}
    (hbytes : (fromEditor extractor body s).2 = .ok bytes) : Forwarded extractor s body bytes := by
  cases hbody : s.decode body with
  | object message =>
    cases hadapt : (incoming extractor message s).2 with
    | error e =>
      rw [fromEditor, pass_object hbody, hadapt] at hbytes
      exact .refused hbody hadapt (Except.ok.inj hbytes).symm
    | ok result =>
      have hreadable := Message.readable_of_decode hbody
      have hout : Json.Readable s.limits.reading (.obj (result.getD message)) := by
        cases result with
        | none => exact hreadable
        | some out => exact incoming_readable hreadable hadapt
      exact .adapted hbody (decode_of_pass hbody hadapt hout hbytes) (incoming_sameBut hadapt)
        (incoming_options hadapt)
  | other | undecodable _ =>
    rw [fromEditor, pass, hbody] at hbytes
    refine .other (fun message hmessage => ?_) (Except.ok.inj hbytes).symm
    rw [hbody] at hmessage
    cases hmessage
  | beyondLimits e =>
    rw [fromEditor, pass, hbody] at hbytes
    cases hbytes

/-- The first message of an editor, about a component whose block starts one line down. -/
theorem body_forwarded_initialize :
    ∃ body bytes s,
      body = Utf8.ofString ("\x7b\"method\":\"initialize\",\"params\":\x7b\"initializationOptions\":"
        ++ "\x7b\"vleam\":\x7b\x7d,\"line\":4\x7d,\"line\":[0,true],"
        ++ "\"textDocument\":\x7b\"uri\":\"file:///src/A.vue\",\"version\":1,"
        ++ "\"text\":\"\\n<script lang=gleam>x</script>\"\x7d\x7d\x7d") ∧
      bytes = Utf8.ofString ("\x7b\"method\":\"initialize\",\"params\":\x7b\"initializationOptions\":"
        ++ "\x7b\"line\":3\x7d,\"line\":[0,true],"
        ++ "\"textDocument\":\x7b\"uri\":\"file:///src/gen/a.gleam\",\"version\":1,"
        ++ "\"text\":\"x\"\x7d\x7d\x7d") ∧
      s = start ⟨⟨.root, []⟩, "src", "gen", "gleam", "gleam", 8⟩ (.empty []) ∧
      (fromEditor (.ofLang "gleam") body s).2 = .ok bytes ∧
      Forwarded (.ofLang "gleam") s body bytes := by
  refine ⟨_, _, _, rfl, rfl, rfl, (and_iff_left_of_imp body_forwarded).mpr ?_⟩
  simp only [Utf8.ofString_append, Utf8.ofString_ofList, Text.ofString_ofList]
  decide +kernel

/-- A first message whose id is a list is refused when its offset is recorded. It is forwarded as it
came, and so with the options for the proxy. -/
theorem refused_message_keeps_options :
    ∃ body s message own,
      body = Utf8.ofString ("\x7b\"id\":[],\"method\":\"initialize\",\"params\":"
        ++ "\x7b\"initializationOptions\":\x7b\"vleam\":\x7b\x7d\x7d,"
        ++ "\"textDocument\":\x7b\"uri\":\"file:///src/A.vue\","
        ++ "\"text\":\"<script lang=gleam>x</script>\"\x7d\x7d\x7d") ∧
      s = start ⟨⟨.root, []⟩, "src", "gen", "gleam", "gleam", 8⟩ (.empty []) ∧
      s.decode body = .object message ∧ ownOptions? message = some own ∧
      (fromEditor (.ofLang "gleam") body s).2 = .ok body := by
  refine ⟨_, _, [(Text.ofString "id", .arr []), (Text.ofString "method", .str "initialize"),
    (Text.ofString "params", .obj [
      (Text.ofString "initializationOptions", .obj [(Text.ofString "vleam", .obj [])]),
      (Text.ofString "textDocument", .obj [
        (Text.ofString "uri", .str "file:///src/A.vue"),
        (Text.ofString "text", .str "<script lang=gleam>x</script>")])])], .obj [], rfl, rfl, ?_⟩
  simp only [Utf8.ofString_append, Utf8.ofString_ofList, Text.ofString_ofList]
  decide +kernel

end Session

end SfcProxy
