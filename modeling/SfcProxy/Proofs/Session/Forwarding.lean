import SfcProxy.Proofs.Json.Sameness
import SfcProxy.Proofs.Session.Lookups

/-!
# What a message of the server comes to

The lookups of a message change the map: a URI that is found becomes the newest entry, and a
component that is discovered is a new one. As long as no entry is dropped, none of this changes
what a lookup comes to, so the message is the one in which each URI is replaced by what the map of
before leads to. Its lines move by one offset, and nothing else of it changes. The offsets, the
settings, the files and what the map held stay as they were.

## Main definitions

* `Json.mapUris`: a value with each of its URIs replaced
* `UriMap.dropped`: the entries that a map drops while URIs are looked up
* `UriMap.Grown`: a map holds what another holds, and leads to the same components
* `Session.Framed`: all that a message of the server comes to and leaves

## Main results

* `Json.withUris_map`: URIs may be replaced in their places, or where they stand in a list
* `Session.mapM_grown`: lookups for which no entry is dropped come to what the map of before leads to
* `Session.outgoing_framed`: what a message of the server comes to
-/

namespace SfcProxy

/-! ## Replacing URIs -/

namespace Json

open Session (isUriField isUriKeyed)

mutual

/-- A value with each of its URIs replaced. -/
def mapUris (f : Text → Text) : Json → Json
  | .arr items => .arr (mapUrisItems f items)
  | .obj members => .obj (mapUrisMembers f members)
  | v => v

/-- The items of an array with their URIs replaced. -/
def mapUrisItems (f : Text → Text) : List Json → List Json
  | [] => []
  | v :: rest => mapUris f v :: mapUrisItems f rest

/-- The value of a member with its URIs replaced. -/
def mapUrisMember (f : Text → Text) (name : Text) : Json → Json
  | .str uri => if isUriField name then .str (f uri) else .str uri
  | .obj members =>
    if isUriKeyed name then .obj (mapUrisKeyed f members) else .obj (mapUrisMembers f members)
  | .arr items => .arr (mapUrisItems f items)
  | v => v

/-- The members of an object with their URIs replaced. -/
def mapUrisMembers (f : Text → Text) : List (Text × Json) → List (Text × Json)
  | [] => []
  | (name, v) :: rest => (name, mapUrisMember f name v) :: mapUrisMembers f rest

/-- Members that are named by URIs, with their names and the URIs in them replaced. -/
def mapUrisKeyed (f : Text → Text) : List (Text × Json) → List (Text × Json)
  | [] => []
  | (uri, v) :: rest => (f uri, mapUris f v) :: mapUrisKeyed f rest

end

mutual

/-- URIs may be replaced where they stand, or in the list of them. -/
theorem withUris_map (f : Text → Text) : ∀ v : Json, v.withUris (v.uris.map f) = v.mapUris f
  | .arr items => by rw [uris, withUris, withUrisItems_map f items, mapUris]
  | .obj members => by rw [uris, withUris, withUrisMembers_map f members, mapUris]
  | .null | .bool _ | .int _ | .real _ | .str _ => by simp [withUris, mapUris]

theorem withUrisItems_map (f : Text → Text) : ∀ items : List Json,
    withUrisItems ((urisItems items).map f) items = mapUrisItems f items
  | [] => rfl
  | v :: rest => by
    rw [urisItems, List.map_append, withUrisItems, List.take_left' (List.length_map f),
      List.drop_left' (List.length_map f), withUris_map f v, withUrisItems_map f rest, mapUrisItems]

theorem withUrisMember_map (f : Text → Text) (name : Text) : ∀ v : Json,
    withUrisMember ((v.urisMember name).map f) name v = mapUrisMember f name v
  | .str uri => by
    rw [urisMember, withUrisMember, mapUrisMember]
    split
    · rfl
    · rfl
  | .obj members => by
    rw [urisMember, withUrisMember, mapUrisMember]
    split
    · rw [withUrisKeyed_map f members]
    · rw [withUrisMembers_map f members]
  | .arr items => by rw [urisMember, withUrisMember, withUrisItems_map f items, mapUrisMember]
  | .null | .bool _ | .int _ | .real _ => by simp [withUrisMember, mapUrisMember]

theorem withUrisMembers_map (f : Text → Text) : ∀ members : Members,
    withUrisMembers ((urisMembers members).map f) members = mapUrisMembers f members
  | [] => rfl
  | (name, v) :: rest => by
    rw [urisMembers, List.map_append, withUrisMembers, List.take_left' (List.length_map f),
      List.drop_left' (List.length_map f), withUrisMember_map f name v, withUrisMembers_map f rest,
      mapUrisMembers]

theorem withUrisKeyed_map (f : Text → Text) : ∀ members : Members,
    withUrisKeyed ((urisKeyed members).map f) members = mapUrisKeyed f members
  | [] => rfl
  | (uri, v) :: rest => by
    rw [urisKeyed, List.map_cons, List.map_append, withUrisKeyed, List.headD_cons, List.tail_cons,
      List.take_left' (List.length_map f), List.drop_left' (List.length_map f), withUris_map f v,
      withUrisKeyed_map f rest, mapUrisKeyed]

end

end Json

/-! ## Lookups that drop nothing -/

namespace UriMap

variable {settings : Settings} {files : FileTree} {map later : UriMap} {uri component : Text}

/-- What a lookup comes to is determined by what the map holds for the URI. -/
theorem toComponent_congr (h : later.get? uri = map.get? uri) :
    (later.toComponent settings files uri).outcome
      = (map.toComponent settings files uri).outcome := by
  unfold toComponent
  split
  · rfl
  · unfold Lru.use?
    rw [h]
    cases map.get? uri with
    | some component => rfl
    | none =>
      simp only [Option.map_none]
      rw [(discover_eq settings files uri later).1, (discover_eq settings files uri map).1]
      rfl

variable (settings files) in
/-- The entries that a map drops for the component of a URI: none if it holds the URI already, or if
no component is found. -/
def droppedFor (map : UriMap) (uri : Text) : UriMap :=
  match map.get? uri, discovery settings files uri with
  | none, .ok (some component) => (map.insert uri component).evicted settings.maxTracked
  | _, _ => []

variable (settings files) in
/-- The entries that a map drops while URIs are looked up one after the other. -/
def dropped : UriMap → List Text → UriMap
  | _, [] => []
  | map, uri :: rest =>
    map.droppedFor settings files uri
      ++ dropped (map.toComponent settings files uri).map rest

/-- A map holds all that another holds, and leads to the same components. -/
structure Grown (settings : Settings) (files : FileTree) (map later : UriMap) : Prop where
  held : ∀ uri component, map.get? uri = some component → later.get? uri = some component
  answers : ∀ uri, later.componentOr settings files uri = map.componentOr settings files uri

theorem Grown.refl (settings : Settings) (files : FileTree) (map : UriMap) :
    Grown settings files map map :=
  ⟨fun _ _ h => h, fun _ => rfl⟩

theorem Grown.trans {last : UriMap} (h : Grown settings files map later)
    (h' : Grown settings files later last) : Grown settings files map last :=
  ⟨fun uri component hget => h'.held uri component (h.held uri component hget),
    fun uri => (h'.answers uri).trans (h.answers uri)⟩

theorem grown_of_get? (h : ∀ uri, later.get? uri = map.get? uri) :
    Grown settings files map later := by
  refine ⟨fun uri component hget => (h uri).trans hget, fun uri => ?_⟩
  rw [componentOr, toComponent_congr (h uri), componentOr]

/-- A lookup that succeeds and drops nothing makes the map grow. -/
theorem grown_toComponent {component? : Option Text}
    (hok : (map.toComponent settings files uri).outcome = .ok component?)
    (hkept : map.droppedFor settings files uri = []) :
    Grown settings files map (map.toComponent settings files uri).map := by
  have hlookedUp := toComponent_cases settings files map uri
  rw [hok] at hlookedUp
  generalize hlater : (map.toComponent settings files uri).map = later at hlookedUp ⊢
  cases hlookedUp with
  | empty | missed => exact .refl settings files map
  | remembered entry => exact grown_of_get? (Lru.get?_of_use? entry).2
  | @found component absent component_eq =>
    have huri : uri ≠ [] := by
      rintro rfl
      cases hok
    have hmap : (map.register settings uri component).map = map.insert uri component := by
      rw [droppedFor, Lru.get?_of_absent absent, component_eq] at hkept
      exact Lru.trim_eq_self hkept
    rw [hmap]
    have hother : ∀ other, other ≠ uri →
        Lru.get? other (map.insert uri component) = map.get? other :=
      fun other hne => by rw [Lru.get?_insert, if_neg hne]
    constructor
    · intro other known hget
      by_cases hne : other = uri
      · rw [hne, Lru.get?_of_absent absent] at hget
        cases hget
      · rw [hother other hne, hget]
    · intro other
      by_cases hne : other = uri
      · have huse : (Lru.insert uri component map).use? uri
            = some (component, (map.insert uri component).insert uri component) := by
          rw [Lru.use?, Lru.get?_insert, if_pos rfl, Option.map_some]
        rw [hne, componentOr_of_ok hok, componentOr, toComponent, if_neg (by simpa using huri),
          huse, Option.getD_some]
      · rw [componentOr, toComponent_congr (hother other hne), componentOr]

end UriMap

namespace Session

variable {settings : Settings} {files : FileTree}

/-- Lookups that succeed and drop nothing make the map grow, and they come to what the map of before
leads to. -/
theorem mapM_grown {uris found : List Text} {map later : UriMap} {log log' : Log}
    (h : (uris.mapM (relocateUri settings files)).run.run (map, log) = (.ok found, later, log'))
    (hkept : map.dropped settings files uris = []) :
    UriMap.Grown settings files map later ∧
      found = uris.map (map.componentOr settings files) := by
  induction uris generalizing found map log with
  | nil =>
    cases h
    exact ⟨.refl settings files _, rfl⟩
  | cons uri rest ih =>
    obtain ⟨component?, others, houtcome, rfl, hrest⟩ := mapM_cons_ok h
    obtain ⟨hkept, hkeptRest⟩ := List.append_eq_nil_iff.mp hkept
    have hgrown := UriMap.grown_toComponent houtcome hkept
    obtain ⟨hgrown', rfl⟩ := ih hrest hkeptRest
    refine ⟨hgrown.trans hgrown', ?_⟩
    rw [List.map_cons]
    congr 1
    exact List.map_congr_left fun other _ => hgrown.answers other

/-! ## Messages -/

variable {message : Members} {s : Session}

/-- What a message is about, with each URI replaced by the component that the map leads to. -/
def replaced (message : Members) (s : Session) : Json :=
  (subject message).mapUris (s.uris.componentOr s.settings s.files)

/-- What the translation of a message leaves. If no entry was dropped, the map has grown, and the
message has the URIs that the map of before leads to. -/
theorem translate_grown {key : Option Text} {relocated : Members}
    (h : (translate message s).2 = .ok (key, relocated))
    (hkept : s.uris.dropped s.settings s.files (lookups message) = []) :
    ∃ later log, (translate message s).1 = { s with uris := later, log } ∧
      UriMap.Grown s.settings s.files s.uris later ∧
        relocated = withSubject message (replaced message s).merged := by
  obtain ⟨later, log, hrun, hleft⟩ := run_of_translate h
  rw [relocateMessage_eq _ _ (callDepth_le_of_translate h)] at hrun
  obtain ⟨found, hlookups, hresult⟩ := Relocation.run_map_ok hrun
  cases hresult
  obtain ⟨hgrown, rfl⟩ := mapM_grown hlookups hkept
  refine ⟨later, _, hleft, hgrown, ?_⟩
  rw [lookups, List.map_append, List.drop_left' (List.length_map _), Json.withUris_map, replaced]

/-- What a message of the server comes to, and what it leaves. In what it is about each URI is
replaced by the component that the map leads to, then the line numbers move by one offset, and
nothing else is changed. Of the session only the order of entries and new components are. -/
structure Framed (message : Members) (s s' : Session) (offset : Int) (out : Members) : Prop where
  nonneg : 0 ≤ offset
  moved : Json.obj out = (Json.obj (withSubject message (replaced message s))).shiftLines offset
  line : ∀ (path : List Json.Step) (n : Int),
    (Json.obj (withSubject message (replaced message s))).follow? (path ++ [.member "line"])
      = some (.int n) →
    (Json.obj out).follow? (path ++ [.member "line"])
      = some (.int (if 0 ≤ n + offset then n + offset else n))
  rest : Json.SameBut Json.OnLine [] (.obj (withSubject message (replaced message s))) (.obj out)
  offsets : ∀ entry, s'.ledger.get? entry = s.ledger.get? entry
  settings : s'.settings = s.settings
  files : s'.files = s.files
  uris : ∀ uri component, s.uris.get? uri = some component → s'.uris.get? uri = some component

/-- **What a message of the server comes to.** After every run from the start, let a message of the
server pass without a failure and without an entry of the map being dropped, and let no two members
that are named by URIs come to one name in it. Then it comes out with its URIs replaced and its lines
moved by one offset, and it leaves what the session knew as it was. -/
theorem outgoing_framed {extractor : Extractor} {turns : List Turn} {settings : Settings}
    {files : FileTree} {limits : Limits} {s : Session}
    (hs : s = after extractor turns (start settings files limits))
    {body bytes : List UInt8} {message : Members} {adapted : Option Members}
    (hbody : s.decode body = .object message) (hok : (outgoing message s).2 = .ok adapted)
    (hbytes : (fromServer body s).2 = .ok bytes)
    (hkept : s.uris.dropped s.settings s.files (lookups message) = [])
    (hdistinct : (replaced message s).Keyed) :
    ∃ offset out, s.decode bytes = .object out ∧
      Framed message s (fromServer body s).1 offset out := by
  have hreadable := outgoing_readable (Message.readable_of_decode hbody) hok
  have hout := decode_of_pass hbody hok hreadable hbytes
  rcases outgoing_cases message s with
    ⟨e, herror, -⟩ | ⟨key, relocated, adapted', htranslate, hadapted, hmoved⟩
  · rw [herror] at hok
    cases hok
  rw [hadapted] at hok
  obtain rfl := Except.ok.inj hok
  obtain ⟨later, log, htranslated, hgrown, hrelocated⟩ := translate_grown htranslate hkept
  obtain ⟨ledger, hsettled, hledger⟩ := settle_kept message key relocated (translate message s).1
  have hafter : (outgoing message s).1
      = { s with ledger, uris := later, log } := by
    rw [outgoing_eq, htranslate]
    dsimp only
    rw [hsettled, htranslated]
  have hsession : (fromServer body s).1 = (outgoing message s).1 := by
    rw [fromServer, pass_session hbody, hadapted]
  have hsame := (Json.merged_eq_self_iff (replaced message s)).mpr hdistinct
  have hobj : Json.obj (adapted'.getD message)
      = (Json.obj (withSubject message (replaced message s))).shiftLines
        (messageOffset key message s) := by
    rw [(moveLines_eq_ok_iff.mp hmoved).2, hrelocated, hsame, Json.shiftLines_obj]
  refine ⟨messageOffset key message s, adapted'.getD message, hout, ?_⟩
  rw [hsession, hafter]
  constructor
  case nonneg => exact (hs ▸ sound_after extractor turns settings files limits).messageOffset_nonneg key _
  case moved => exact hobj
  case line =>
    intro path n hline
    rw [hobj]
    exact Json.follow?_line_shiftLines _ hline
  case rest =>
    rw [hobj]
    exact Json.sameBut_shiftLines _ _ []
  case offsets =>
    intro entry
    rw [htranslated] at hledger
    exact hledger entry
  case settings => rfl
  case files => rfl
  case uris => exact hgrown.held

/-- A rename is answered with edits to the component that asked for it, to one that is discovered
and to a plain file. Their URIs are replaced, and lines move by one where they stay at or above
zero. -/
theorem outgoing_framed_rename :
    ∃ turns files s body message bytes adapted,
      s = after (.ofLang "gleam") turns
        (start ⟨⟨.root, []⟩, "src", "gen", "gleam", "gleam", 8⟩ files) ∧
      bytes = Utf8.ofString ("\x7b\"id\":1,\"result\":\x7b\"changes\":"
        ++ "\x7b\"file:///src/A.vue\":[\x7b\"line\":1\x7d],"
        ++ "\"file:///src/B.vue\":[\x7b\"line\":-2\x7d],"
        ++ "\"file:///src/c.gleam\":[]\x7d,\"line\":true\x7d\x7d") ∧
      (s.decode body = .object message ∧ (outgoing message s).2 = .ok adapted ∧
        (fromServer body s).2 = .ok bytes ∧
        s.uris.dropped s.settings s.files (lookups message) = [] ∧
        (replaced message s).Keyed) ∧
      ∃ offset out, s.decode bytes = .object out ∧
        Framed message s (fromServer body s).1 offset out := by
  obtain ⟨s, hs⟩ : ∃ s, s = after (.ofLang "gleam")
      [.editor (Utf8.ofString ("\x7b\"id\":1,\"method\":\"textDocument/rename\",\"params\":"
        ++ "\x7b\"textDocument\":\x7b\"uri\":\"file:///src/A.vue\","
        ++ "\"text\":\"\\n<script lang=gleam>x</script>\"\x7d\x7d\x7d")),
      .files ⟨[], [(["src"], .directory), (["src", "B.vue"], .file [] false)]⟩]
      (start ⟨⟨.root, []⟩, "src", "gen", "gleam", "gleam", 8⟩ (.empty [])) := ⟨_, rfl⟩
  obtain ⟨body, hbody⟩ : ∃ body, body = Utf8.ofString ("\x7b\"id\":1,\"result\":\x7b\"changes\":"
      ++ "\x7b\"file:///src/gen/a.gleam\":[\x7b\"line\":0\x7d],"
      ++ "\"file:///src/gen/b.gleam\":[\x7b\"line\":-2\x7d],"
      ++ "\"file:///src/c.gleam\":[]\x7d,\"line\":true\x7d\x7d") := ⟨_, rfl⟩
  obtain ⟨message, hmessage⟩ : ∃ message : Members, message = [(Text.ofString "id", .int 1),
      (Text.ofString "result", .obj [
        (Text.ofString "changes", .obj [
          (Text.ofString "file:///src/gen/a.gleam", .arr [.obj [(Text.ofString "line", .int 0)]]),
          (Text.ofString "file:///src/gen/b.gleam", .arr [.obj [(Text.ofString "line", .int (-2))]]),
          (Text.ofString "file:///src/c.gleam", .arr [])]),
        (Text.ofString "line", .bool true)])] := ⟨_, rfl⟩
  obtain ⟨bytes, hbytes⟩ : ∃ bytes, bytes = Utf8.ofString ("\x7b\"id\":1,\"result\":\x7b\"changes\":"
      ++ "\x7b\"file:///src/A.vue\":[\x7b\"line\":1\x7d],"
      ++ "\"file:///src/B.vue\":[\x7b\"line\":-2\x7d],"
      ++ "\"file:///src/c.gleam\":[]\x7d,\"line\":true\x7d\x7d") := ⟨_, rfl⟩
  have hcheck : s.decode body = .object message ∧ (fromServer body s).2 = .ok bytes ∧
      bytes ≠ body ∧ s.uris.dropped s.settings s.files (lookups message) = [] ∧
      (replaced message s).merged = replaced message s := by
    rw [hs, hbody, hmessage, hbytes]
    simp only [Utf8.ofString_append, Utf8.ofString_ofList, Text.ofString_ofList]
    decide +kernel
  obtain ⟨hdecode, hout, hne, hkept, hmerged⟩ := hcheck
  obtain ⟨adapted, hok⟩ := unfailing_of_ne hout hne message hdecode
  have hdistinct := (Json.merged_eq_self_iff (replaced message s)).mp hmerged
  exact ⟨_, _, s, body, message, bytes, adapted, hs, hbytes,
    ⟨hdecode, hok, hout, hkept, hdistinct⟩,
    outgoing_framed hs hdecode hok hout hkept hdistinct⟩

/-- The server names a file `targetUri` among those that it changes, and puts the URI of a generated
file where the edits should be. A component is known for that URI and nothing fails or is dropped,
but the URI is not replaced. -/
theorem uri_under_changes_kept :
    ∃ answer s message uri,
      answer = Utf8.ofString ("\x7b\"id\":1,\"result\":\x7b\"changes\":"
        ++ "\x7b\"targetUri\":\"file:///src/gen/a.gleam\"\x7d\x7d\x7d") ∧
      s = after (.ofLang "gleam") []
        (start ⟨⟨.root, []⟩, "src", "gen", "gleam", "gleam", 8⟩
          ⟨[], [(["src"], .directory), (["src", "A.vue"], .file [] false)]⟩) ∧
      s.decode answer = .object message ∧ isUriField "targetUri" = true ∧
      (Json.obj message).follow? [.member "result", .member "changes", .member "targetUri"]
        = some (.str uri) ∧
      s.uris.componentOr s.settings s.files uri = "file:///src/A.vue" ∧
      (outgoing message s).2 = .ok none ∧
      s.uris.dropped s.settings s.files (lookups message) = [] ∧
      (replaced message s).merged = replaced message s ∧ (fromServer answer s).2 = .ok answer := by
  refine ⟨_, _, [(Text.ofString "id", .int 1), (Text.ofString "result", .obj [
    (Text.ofString "changes", .obj [
      (Text.ofString "targetUri", .str "file:///src/gen/a.gleam")])])], "file:///src/gen/a.gleam",
    rfl, rfl, ?_⟩
  simp only [Utf8.ofString_append, Utf8.ofString_ofList, Text.ofString_ofList]
  decide +kernel

end Session

end SfcProxy
