import SfcProxy.Proofs.Session.Redirection

/-!
# Changes to a component

A message with changes to a component looks at the texts of the changes twice. The newest text with
a block decides the offset and what is written to the generated file, and it is looked for from the
end. The texts that are forwarded are found from the start. Both come to the same if all changes are
of the whole document: what is forwarded are the blocks of the changes in their order, and the last
of them is the one that decides. So the server and the ledger agree about the document, whatever
else is known of it. A change of a range never decides, but it is forwarded, too, if its text has a
block.

## Main definitions

* `Session.pieces`: the blocks of changes, in order
* `Session.Agrees`: what a message with changes comes to and leaves
* `Session.forwardedChange?`: what is forwarded of a change

## Main results

* `Session.findSome?_candidates`: the last block of the changes decides
* `Session.follow?_changesPath_redirect`: the blocks of the changes are forwarded
* `Session.changes_agree`: both come to the same
* `Session.incremental_changes_dropped_iff`: what is forwarded when some changes are of a range
-/

namespace SfcProxy.Session

variable {extractor : Extractor} {message : Members} {s : Session} {settings : Settings}
  {target : Target} {block : ScriptBlock} {items : List Json}

/-! ## Blocks of changes -/

/-- The blocks of whole-document changes, in order; changes without a block are left out. -/
def pieces (extractor : Extractor) (items : List Json) : List ScriptBlock :=
  items.filterMap fun change => (wholeText? change).bind (pieceOf? extractor)

/-- The changes of a message without its options are those of the message. -/
theorem changes_of_isOf (htarget : target.IsOf settings (unwrap message s).message)
    (hitems : (Json.obj message).follow? changesPath = some (.arr items)) :
    Json.get? "contentChanges" target.params = some (.arr items) := by
  obtain ⟨given, hgiven, hsame, -⟩ := params_unwrap htarget.params
  rw [hsame _ (by decide)]
  simp only [changesPath, Json.follow?, hgiven, Option.bind_some] at hitems
  cases hchanges : Json.get? "contentChanges" given with
  | none =>
    rw [hchanges] at hitems
    cases hitems
  | some v =>
    rw [hchanges] at hitems
    exact hitems

/-- Of the texts at hand, newest first, the first with a block is that of the last change with
one. -/
theorem findSome?_candidates (hitems : Json.get? "contentChanges" target.params = some (.arr items))
    (hlast : (pieces extractor items).getLast? = some block) :
    (candidates target).findSome? (pieceOf? extractor) = some block := by
  have hchanges : changes target.params = items := by
    rw [changes, hitems]
    rfl
  have hnewest : (items.reverse.filterMap wholeText?).findSome? (pieceOf? extractor)
      = some block := by
    rw [← List.head?_filterMap, List.filterMap_filterMap, List.filterMap_reverse,
      List.head?_reverse]
    exact hlast
  rw [candidates, hchanges, List.findSome?_append, hnewest, Option.some_or]

/-- If all changes are of the whole document, the changes that are kept are their blocks. -/
theorem keptChanges_eq (hitems : Json.get? "contentChanges" target.params = some (.arr items))
    (hwhole : ∀ change ∈ items, (wholeText? change).isSome) :
    keptChanges extractor target.params = (pieces extractor items).map blockChange := by
  have hchanges : changes target.params = items := by
    rw [changes, hitems]
    rfl
  have htexts : items.filterMap changeText? = items.filterMap wholeText? := by
    refine List.filterMap_congr fun change hchange => ?_
    have hsome := hwhole change hchange
    unfold wholeText? at hsome ⊢
    split
    · rename_i hrange
      rw [if_pos hrange] at hsome
      cases hsome
    · rfl
  rw [keptChanges, hchanges, htexts, pieces, List.filterMap_filterMap, List.map_filterMap]
  refine List.filterMap_congr fun change _ => ?_
  cases wholeText? change <;> rfl

/-- Changes to the texts of blocks have no lines. -/
theorem shiftLines_blockChanges (offset : Int) (blocks : List ScriptBlock) :
    (Json.arr (blocks.map blockChange)).shiftLines offset = .arr (blocks.map blockChange) := by
  rw [Json.shiftLines_eq_mapMembers, Json.mapMembers, Json.mapMembersItems_eq_map, List.map_map]
  congr 1
  refine List.map_congr_left fun block _ => ?_
  rw [Function.comp_apply, ← Json.shiftLines_eq_mapMembers, blockChange, Json.shiftLines_obj,
    Json.shiftMembers_cons, Json.shiftMember_str]
  rfl

/-- A redirected message carries the changes that are kept. -/
theorem follow?_changesPath_redirect (message : Members)
    (hitems : Json.get? "contentChanges" target.params = some (.arr items)) :
    (Json.obj (redirect extractor target block message)).follow? changesPath
      = some (.arr (keptChanges extractor target.params)) := by
  unfold redirect changesPath
  dsimp only
  rw [Json.follow?_set, if_pos rfl, Json.get?_set, if_neg (by decide), hitems]
  dsimp only
  rw [Json.follow?_set, if_pos rfl, Json.follow?]

/-! ## Agreement -/

/-- What a message with changes to a component comes to and leaves. Forwarded are the blocks of the
changes in their order. The last of them is written to the generated file, and its offset is
recorded for the component and taken from the lines of the message. -/
structure Agrees (extractor : Extractor) (message : Members) (items : List Json) (s s' : Session)
    (target : Target) (block : ScriptBlock) (out : Members) : Prop where
  last : (pieces extractor items).getLast? = some block
  changes : (Json.obj out).follow? changesPath
    = some (.arr ((pieces extractor items).map blockChange))
  file : ∃ generated, GeneratedFile.ofComponent? s'.settings target.path = some generated ∧
    (s'.files.readFile generated = .ok (Utf8.encodeChars block.sourceText) ∨
      ∃ e, WriteFails s.files generated (Utf8.encodeChars block.sourceText) e ∧
        e.isSystem = true)
  recorded : s'.ledger = (s.ledger.record s.settings.maxTracked block.lineOffset (some target.uri)
    .editor (requestId message)).1
  offset : ∀ offset, s'.ledger.get? (.document target.uri) = some offset →
    offset = block.lineOffset
  held : 2 ≤ s.settings.maxTracked →
    s'.ledger.get? (.document target.uri) = some block.lineOffset
  moved : Json.obj out = (Json.obj (redirect extractor target block
    (unwrap message s).message)).shiftLines (-block.lineOffset)
  lines : ∀ path n, (Json.obj message).follow? (path ++ [.member "line"]) = some (.int n) →
    ¬ changesPath <+: path → (ownOptions? message = none ∨ ¬ optionsPath <+: path) →
    (Json.obj out).follow? (path ++ [.member "line"])
      = some (.int (if 0 ≤ n - block.lineOffset then n - block.lineOffset else n))

/-- **What is forwarded and what is recorded agree.** Let a message carry changes to a component,
all of them of the whole document and one with a block, and let nothing fail. Then the blocks of the
changes are forwarded, and the last of them is the one that is written and whose offset is recorded,
whatever else the message and the disk hold of the component. -/
theorem changes_agree {body bytes : List UInt8} {result : Option Members}
    (hbody : s.decode body = .object message)
    (htarget : target? (settingsBy message s.settings) (unwrap message s).message
      = .ok (some target))
    (hitems : (Json.obj message).follow? changesPath = some (.arr items))
    (hwhole : ∀ change ∈ items, (wholeText? change).isSome)
    (hpieces : pieces extractor items ≠ [])
    (hok : (incoming extractor message s).2 = .ok result)
    (hbytes : (fromEditor extractor body s).2 = .ok bytes) :
    ∃ block out, s.decode bytes = .object out ∧
      Agrees extractor message items s (fromEditor extractor body s).1 target block out := by
  have hisOf := Target.isOf htarget
  have hcontent := changes_of_isOf hisOf hitems
  obtain ⟨block, hlast⟩ := Option.ne_none_iff_exists'.mp (mt List.getLast?_eq_none_iff.mp hpieces)
  have hblock : decidingBlock extractor s.files target = .ok (some block) := by
    rw [decidingBlock, findSome?_candidates hcontent hlast]
  have hredirected := incoming_redirected htarget hblock hok
  obtain ⟨hsource, -⟩ := UriMap.hasScheme_of_toGenerated? hisOf.generated
  obtain ⟨hnonneg, -, -⟩ := Ledger.nonneg_of_record hredirected.recorded
  obtain rfl := hredirected.result
  have hreadable := Message.readable_of_decode hbody
  have hout := decode_of_pass hbody hok (incoming_readable hreadable hok) hbytes
  rw [Option.getD_some] at hout
  refine ⟨block, _, hout, ?_⟩
  rw [fromEditor, pass_session hbody, hok]
  constructor
  case last => exact hlast
  case changes =>
    rw [← Json.shiftLines_obj, Json.follow?_shiftLines_of_notMem _ (by decide),
      follow?_changesPath_redirect _ hcontent, Option.map_some, keptChanges_eq hcontent hwhole,
      shiftLines_blockChanges]
  case file =>
    rw [hredirected.settings]
    exact hredirected.written
  case recorded => exact hredirected.ledger
  case offset =>
    intro offset hget
    have hmem := Lru.mem_of_get? hget
    rw [hredirected.ledger] at hmem
    rcases Ledger.mem_record hmem with ⟨-, hother⟩ | ⟨-, hvalue, -⟩
    · exact absurd (Ledger.documentKey?_of_ne_nil hsource.ne_nil) (hother hnonneg)
    · exact hvalue
  case held =>
    intro hbound
    rw [hredirected.ledger]
    exact Ledger.get?_record_document hbound hnonneg hsource.ne_nil _ _ _
  case moved => rw [Json.shiftLines_obj]
  case lines =>
    intro path n hline hchanges hoptions
    exact hredirected.lines hisOf hline hchanges hoptions

/-- Four changes, two of them with blocks, whose starts differ from each other and from those of the
blocks in the message and on disk. -/
theorem changes_agree_dropped :
    ∃ body bytes message items s,
      body = Utf8.ofString ("\x7b\"params\":\x7b\"textDocument\":"
        ++ "\x7b\"uri\":\"file:///src/A.vue\",\"text\":\"\\n\\n<script lang=gleam>f</script>\"\x7d,"
        ++ "\"contentChanges\":[\x7b\"text\":\"<script lang=gleam>a</script>\"\x7d,"
        ++ "\x7b\"text\":\"<script lang=gleam>b</div>\"\x7d,"
        ++ "\x7b\"text\":\"\\n<script lang=gleam>c</script>\"\x7d,\x7b\"text\":\"d\"\x7d],"
        ++ "\"line\":4\x7d\x7d") ∧
      bytes = Utf8.ofString ("\x7b\"params\":\x7b\"textDocument\":"
        ++ "\x7b\"uri\":\"file:///src/gen/a.gleam\",\"text\":\"f\"\x7d,"
        ++ "\"contentChanges\":[\x7b\"text\":\"a\"\x7d,\x7b\"text\":\"c\"\x7d],\"line\":3\x7d\x7d") ∧
      s = start ⟨⟨.root, []⟩, "src", "gen", "gleam", "gleam", 8⟩
        ((FileTree.empty []).plant ["src", "A.vue"]
          (.file (Utf8.ofString "\n\n\n<script lang=gleam>e</script>") false)) ∧
      (s.decode body = .object message ∧
        (Json.obj message).follow? changesPath = some (.arr items) ∧
        (∀ change ∈ items, (wholeText? change).isSome) ∧
        (pieces (.ofLang "gleam") items).map (fun block => (block.lineOffset, block.sourceText))
          = [(0, ['a']), (1, ['c'])] ∧
        (fromEditor (.ofLang "gleam") body s).2 = .ok bytes) ∧
      ∃ target result block out,
        target? (settingsBy message s.settings) (unwrap message s).message = .ok (some target) ∧
        (incoming (.ofLang "gleam") message s).2 = .ok result ∧
        s.decode bytes = .object out ∧
        Agrees (.ofLang "gleam") message items s (fromEditor (.ofLang "gleam") body s).1 target
          block out := by
  refine ⟨_, _, [(Text.ofString "params", .obj [(Text.ofString "textDocument", .obj [
      (Text.ofString "uri", .str "file:///src/A.vue"),
      (Text.ofString "text", .str "\n\n<script lang=gleam>f</script>")]),
      (Text.ofString "contentChanges", .arr [
        .obj [(Text.ofString "text", .str "<script lang=gleam>a</script>")],
        .obj [(Text.ofString "text", .str "<script lang=gleam>b</div>")],
        .obj [(Text.ofString "text", .str "\n<script lang=gleam>c</script>")],
        .obj [(Text.ofString "text", .str "d")]]),
      (Text.ofString "line", .int 4)])],
    [.obj [(Text.ofString "text", .str "<script lang=gleam>a</script>")],
      .obj [(Text.ofString "text", .str "<script lang=gleam>b</div>")],
      .obj [(Text.ofString "text", .str "\n<script lang=gleam>c</script>")],
      .obj [(Text.ofString "text", .str "d")]], _, rfl, rfl, rfl, ?_⟩
  generalize hs : start _ _ = s
  generalize hbody : Utf8.ofString _ = body
  generalize hbytes : Utf8.ofString _ = bytes
  generalize hmessage : [(Text.ofString "params", _)] = message
  generalize hitems : [Json.obj _, _, _, _] = items
  have hcheck : (s.decode body = .object message ∧
      (Json.obj message).follow? changesPath = some (.arr items) ∧
      (∀ change ∈ items, (wholeText? change).isSome) ∧
      (pieces (.ofLang "gleam") items).map (fun block => (block.lineOffset, block.sourceText))
        = [(0, ['a']), (1, ['c'])] ∧
      (fromEditor (.ofLang "gleam") body s).2 = .ok bytes) ∧ bytes ≠ body ∧
      (target? (settingsBy message s.settings)
        (unwrap message s).message).toOption.join.isSome = true := by
    rw [← hmessage, ← hitems, ← hs, ← hbody, ← hbytes]
    simp only [Utf8.ofString_append, Utf8.ofString_ofList, Text.ofString_ofList]
    decide +kernel
  obtain ⟨hfacts, hne, htarget⟩ := hcheck
  obtain ⟨hdecode, hchanges, hwhole, hblocks, hout⟩ := hfacts
  obtain ⟨target, htarget⟩ := Option.isSome_iff_exists.mp htarget
  have htarget := Traffic.toOption_eq_some (Option.join_eq_some_iff.mp htarget)
  obtain ⟨result, hok⟩ := unfailing_of_ne hout hne message hdecode
  have hpieces : pieces (.ofLang "gleam") items ≠ [] := by
    intro hnone
    rw [hnone, List.map_nil] at hblocks
    exact List.cons_ne_nil _ _ hblocks.symm
  obtain ⟨block, out, hforwarded, hagrees⟩ :=
    changes_agree hdecode htarget hchanges hwhole hpieces hok hout
  exact ⟨⟨hdecode, hchanges, hwhole, hblocks, hout⟩, target, result, block, out, htarget, hok,
    hforwarded, hagrees⟩

/-! ## Changes of a range

Only changes of the whole document are looked at for the block that decides. What is forwarded is
found in each text alone, whether it is that of the whole document or not. So an inserted text that
is a component of its own goes out as if it were the document. -/

/-- The change that is forwarded in place of a change, if its text has a block. -/
def forwardedChange? (extractor : Extractor) (change : Json) : Option Json :=
  ((changeText? change).bind (pieceOf? extractor)).map blockChange

/-- The change is of a range of the document, not of the whole. -/
def IsIncremental (change : Json) : Prop :=
  (change.member? "range").isSome = true

theorem keptChanges_eq_filterMap
    (hitems : Json.get? "contentChanges" target.params = some (.arr items)) :
    keptChanges extractor target.params = items.filterMap (forwardedChange? extractor) := by
  have hchanges : changes target.params = items := by
    rw [changes, hitems]
    rfl
  rw [keptChanges, hchanges, List.filterMap_filterMap]
  refine List.filterMap_congr fun change _ => ?_
  rw [forwardedChange?]
  cases changeText? change <;> rfl

/-- A change of the whole document is forwarded as its block, if it has one. -/
theorem forwardedChange?_of_not_incremental {change : Json} (h : ¬ IsIncremental change) :
    ((wholeText? change).bind (pieceOf? extractor)).map blockChange
      = forwardedChange? extractor change := by
  rw [IsIncremental] at h
  rw [forwardedChange?, wholeText?, if_neg h]

/-- No block is taken for that of the whole document if the change is of a range. -/
theorem wholeText?_of_incremental {change : Json} (h : IsIncremental change) :
    wholeText? change = none :=
  if_pos h

/-- More changes are forwarded than there are blocks of whole documents, one for each change of a
range whose text has a block. -/
theorem length_filterMap_forwardedChange? (extractor : Extractor) (items : List Json) :
    (items.filterMap (forwardedChange? extractor)).length
      = (pieces extractor items).length
        + items.countP fun change => (change.member? "range").isSome
          && (forwardedChange? extractor change).isSome := by
  induction items with
  | nil => rfl
  | cons change items ih =>
    have hpieces : pieces extractor (change :: items)
        = (((wholeText? change).bind (pieceOf? extractor)).toList ++ pieces extractor items) := by
      rw [pieces, List.filterMap_cons]
      cases (wholeText? change).bind (pieceOf? extractor) <;> rfl
    have hforwarded : (change :: items).filterMap (forwardedChange? extractor)
        = (forwardedChange? extractor change).toList
          ++ items.filterMap (forwardedChange? extractor) := by
      rw [List.filterMap_cons]
      cases forwardedChange? extractor change <;> rfl
    rw [hpieces, hforwarded, List.length_append, List.length_append, ih, List.countP_cons]
    by_cases hrange : IsIncremental change
    · rw [wholeText?_of_incremental hrange, show (change.member? "range").isSome = true from hrange]
      cases forwardedChange? extractor change with
      | none => simp
      | some kept => simp; omega
    · have hwhole : ((wholeText? change).bind (pieceOf? extractor)).map blockChange
          = forwardedChange? extractor change := forwardedChange?_of_not_incremental hrange
      rw [← hwhole, show (change.member? "range").isSome = false from Bool.not_eq_true _ ▸ hrange]
      cases (wholeText? change).bind (pieceOf? extractor) with
      | none => simp
      | some block => simp; omega

/-- The forwarded changes are those of the whole document exactly if no change of a range has a text
with a block. -/
theorem filterMap_forwardedChange?_eq_iff (extractor : Extractor) (items : List Json) :
    items.filterMap (forwardedChange? extractor) = (pieces extractor items).map blockChange ↔
      ∀ change ∈ items, IsIncremental change → forwardedChange? extractor change = none := by
  constructor
  · intro hsame change hchange hrange
    have hlength := length_filterMap_forwardedChange? extractor items
    rw [hsame, List.length_map, Nat.left_eq_add, List.countP_eq_zero] at hlength
    have hnot := hlength change hchange
    rw [show (change.member? "range").isSome = true from hrange, Bool.true_and,
      Option.not_isSome_iff_eq_none] at hnot
    exact hnot
  · intro hnone
    rw [pieces, List.map_filterMap]
    refine List.filterMap_congr fun change hchange => ?_
    by_cases hrange : IsIncremental change
    · rw [hnone change hchange hrange, wholeText?_of_incremental hrange]
      rfl
    · exact (forwardedChange?_of_not_incremental hrange).symm

/-- **What is forwarded of incremental changes.** Let a message be redirected that carries changes
to a component. Forwarded is the block of every change whose text has one, in their order. These are
the blocks of the changes of the whole document, and no others, if and only if no text of a change
of a range has a block. -/
theorem incremental_changes_dropped_iff {body bytes : List UInt8} {result : Option Members}
    (hbody : s.decode body = .object message)
    (htarget : target? (settingsBy message s.settings) (unwrap message s).message
      = .ok (some target))
    (hblock : decidingBlock extractor s.files target = .ok (some block))
    (hitems : (Json.obj message).follow? changesPath = some (.arr items))
    (hok : (incoming extractor message s).2 = .ok result)
    (hbytes : (fromEditor extractor body s).2 = .ok bytes) :
    ∃ out, s.decode bytes = .object out ∧
      (Json.obj out).follow? changesPath
        = some (.arr (items.filterMap (forwardedChange? extractor))) ∧
      ((Json.obj out).follow? changesPath
          = some (.arr ((pieces extractor items).map blockChange)) ↔
        ∀ change ∈ items, IsIncremental change → forwardedChange? extractor change = none) := by
  obtain ⟨out, hout, hredirected⟩ := exists_redirected hbody htarget hblock hok hbytes
  have hcontent := changes_of_isOf (Target.isOf htarget) hitems
  have hblocks : ∃ blocks, items.filterMap (forwardedChange? extractor)
      = List.map blockChange blocks := by
    refine ⟨items.filterMap fun change => (changeText? change).bind (pieceOf? extractor), ?_⟩
    rw [List.map_filterMap]
    rfl
  have hforwarded : (Json.obj out).follow? changesPath
      = some (.arr (items.filterMap (forwardedChange? extractor))) := by
    obtain ⟨blocks, hblocks⟩ := hblocks
    obtain rfl := Option.some.inj hredirected.result
    rw [← Json.shiftLines_obj, Json.follow?_shiftLines_of_notMem _ (by decide),
      follow?_changesPath_redirect _ hcontent, Option.map_some, keptChanges_eq_filterMap hcontent,
      hblocks, shiftLines_blockChanges]
  refine ⟨out, hout, hforwarded, ?_⟩
  rw [hforwarded, Option.some.injEq, Json.arr.injEq]
  exact filterMap_forwardedChange?_eq_iff extractor items

/-- A change of the whole document, and one that types a letter. -/
theorem incremental_changes_dropped_typing :
    ∃ body bytes message items s,
      body = Utf8.ofString ("\x7b\"params\":\x7b\"textDocument\":"
        ++ "\x7b\"uri\":\"file:///src/A.vue\"\x7d,\"contentChanges\":["
        ++ "\x7b\"text\":\"<script lang=gleam>a</script>\"\x7d,"
        ++ "\x7b\"range\":null,\"text\":\"b\"\x7d]\x7d\x7d") ∧
      bytes = Utf8.ofString ("\x7b\"params\":\x7b\"textDocument\":"
        ++ "\x7b\"uri\":\"file:///src/gen/a.gleam\"\x7d,\"contentChanges\":["
        ++ "\x7b\"text\":\"a\"\x7d]\x7d\x7d") ∧
      s = start ⟨⟨.root, []⟩, "src", "gen", "gleam", "gleam", 8⟩ (.empty []) ∧
      (s.decode body = .object message ∧
        (Json.obj message).follow? changesPath = some (.arr items) ∧
        (fromEditor (.ofLang "gleam") body s).2 = .ok bytes ∧
        items.map (fun change => (change.member? "range").isSome) = [false, true]) ∧
      ∃ target block result out,
        target? (settingsBy message s.settings) (unwrap message s).message = .ok (some target) ∧
        decidingBlock (.ofLang "gleam") s.files target = .ok (some block) ∧
        (incoming (.ofLang "gleam") message s).2 = .ok result ∧
        s.decode bytes = .object out ∧
        (Json.obj out).follow? changesPath
          = some (.arr (items.filterMap (forwardedChange? (.ofLang "gleam")))) ∧
        ((Json.obj out).follow? changesPath
            = some (.arr ((pieces (.ofLang "gleam") items).map blockChange)) ↔
          ∀ change ∈ items, IsIncremental change →
            forwardedChange? (.ofLang "gleam") change = none) := by
  refine ⟨_, _, [(Text.ofString "params", .obj [(Text.ofString "textDocument", .obj [
      (Text.ofString "uri", .str "file:///src/A.vue")]),
      (Text.ofString "contentChanges", .arr [
        .obj [(Text.ofString "text", .str "<script lang=gleam>a</script>")],
        .obj [(Text.ofString "range", .null), (Text.ofString "text", .str "b")]])])],
    [.obj [(Text.ofString "text", .str "<script lang=gleam>a</script>")],
      .obj [(Text.ofString "range", .null), (Text.ofString "text", .str "b")]], _,
    rfl, rfl, rfl, ?_⟩
  generalize hs : start _ _ = s
  generalize hbody : Utf8.ofString _ = body
  generalize hbytes : Utf8.ofString _ = bytes
  generalize hmessage : [(Text.ofString "params", _)] = message
  generalize hitems : [Json.obj _, _] = items
  have hcheck : (s.decode body = .object message ∧
      (Json.obj message).follow? changesPath = some (.arr items) ∧
      (fromEditor (.ofLang "gleam") body s).2 = .ok bytes ∧
      items.map (fun change => (change.member? "range").isSome) = [false, true]) ∧ bytes ≠ body ∧
      (target? (settingsBy message s.settings)
        (unwrap message s).message).toOption.join.any (fun target =>
          (decidingBlock (.ofLang "gleam") s.files target).toOption.join.isSome) = true := by
    rw [← hmessage, ← hitems, ← hs, ← hbody, ← hbytes]
    simp only [Utf8.ofString_append, Utf8.ofString_ofList, Text.ofString_ofList]
    decide +kernel
  obtain ⟨hfacts, hne, hdeciding⟩ := hcheck
  obtain ⟨hdecode, hchanges, hout, hranges⟩ := hfacts
  obtain ⟨target, block, htarget, hblock⟩ := exists_deciding_of_any hdeciding
  obtain ⟨result, hok⟩ := unfailing_of_ne hout hne message hdecode
  obtain ⟨out, hforwarded, hkept, hiff⟩ :=
    incremental_changes_dropped_iff hdecode htarget hblock hchanges hok hout
  exact ⟨⟨hdecode, hchanges, hout, hranges⟩, target, block, result, out, htarget, hblock, hok,
    hforwarded, hkept, hiff⟩

/-- A component that is pasted into a component goes out as the whole document. -/
theorem pasted_component_forwarded :
    ∃ body s,
      body = Utf8.ofString ("\x7b\"params\":\x7b\"textDocument\":"
        ++ "\x7b\"uri\":\"file:///src/A.vue\","
        ++ "\"text\":\"<script lang=gleam>x</script>\"\x7d,"
        ++ "\"contentChanges\":[\x7b\"range\":null,"
        ++ "\"text\":\"<script lang=gleam>y</script>\"\x7d]\x7d\x7d") ∧
      s = start ⟨⟨.root, []⟩, "src", "gen", "gleam", "gleam", 8⟩ (.empty []) ∧
      (fromEditor (.ofLang "gleam") body s).2
        = .ok (Utf8.ofString ("\x7b\"params\":\x7b\"textDocument\":"
          ++ "\x7b\"uri\":\"file:///src/gen/a.gleam\",\"text\":\"x\"\x7d,"
          ++ "\"contentChanges\":[\x7b\"text\":\"y\"\x7d]\x7d\x7d")) := by
  refine ⟨_, _, rfl, rfl, ?_⟩
  simp only [Utf8.ofString_append, Utf8.ofString_ofList, Text.ofString_ofList]
  decide +kernel

end SfcProxy.Session
