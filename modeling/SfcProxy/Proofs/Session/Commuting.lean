import SfcProxy.Proofs.Clashes
import SfcProxy.Proofs.Rooted
import SfcProxy.Proofs.Session.Confinement
import SfcProxy.Proofs.Session.Passage

/-!
# Messages about different documents

Two messages of the editor that are about different components do not get in each other's way. All
that the one reads of what both share is the component on disk, and all that the other writes there
are directories and a generated file, which is no component. The offsets and the URIs that they
record have different keys. So it makes no difference for the server which of them comes first, nor
for what is looked up later.

The order in which entries were used does differ, and so does what is dropped if a bound is reached.
And the source directory has to be spelled without `..`: else the other message may make the very
directory from which the path of a component leads up again.

## Main definitions

* `redirection?`: the component that a message is redirected for, and its deciding block
* `Comes`: what a message comes to, by its redirection
* `Smooth`: a body passes without an exception and without dropping entries
* `Apart`: two messages are about different components, as different requests
* `AnswersAlike`: what is looked up in one session or the other is the same
* `Commute`: two bodies pass in either order with the same results

## Main results

* `rooted_after`: the files of a session stay a tree in which everything stands in a directory
* `Comes.redirection?_eq`: no message changes the redirection of another
* `AnswersAlike.of_comes`: two messages one after the other record the same in either order
* `fromEditor_commute`: messages about different components commute
-/

namespace SfcProxy

/-! ## Lookups by value -/

namespace Ledger

variable {ledger ledger' : Ledger}

theorem lookupRequest_congr (h : ∀ key, ledger.get? key = ledger'.get? key) (origin : Origin)
    (id : Json) :
    (ledger.lookupRequest origin id).map (·.1) = (ledger'.lookupRequest origin id).map (·.1) := by
  unfold lookupRequest
  rcases RequestId.ofJson id with e | _ | request
  · rfl
  · rfl
  · dsimp only
    rw [Lru.use?, Lru.use?, h]
    cases ledger'.get? (.request origin request) <;> rfl

/-- What a lookup finds depends on the values of the keys alone. -/
theorem lookup_congr (h : ∀ key, ledger.get? key = ledger'.get? key) (uri : Option Text)
    (origin : Origin) (id : Json) :
    (ledger.lookup uri origin id).map (·.1) = (ledger'.lookup uri origin id).map (·.1) := by
  have hrequest := lookupRequest_congr h origin id
  unfold lookup
  cases documentKey? uri with
  | none => exact hrequest
  | some document =>
    rw [Option.bind_some, Option.bind_some, Lru.use?, Lru.use?, h]
    cases ledger'.get? document with
    | none => exact hrequest
    | some offset => rfl

end Ledger

/-- What the map recalls is the value of the key. -/
theorem UriMap.cached_fst (generated : Text) (map : UriMap) :
    (map.cached generated).1 = map.get? generated := by
  unfold cached Lru.use?
  cases map.get? generated <;> rfl

namespace Session

open GeneratedFile (generatedSuffix)

variable {extractor : Extractor} {message message' : Members} {s : Session} {settings : Settings}
  {target : Target} {block : ScriptBlock}

/-! ## Files -/

/-- Writing a generated file adds directories and files that are called like generated ones. -/
theorem Materialized.adds {files written : FileTree} {path generated root : Path}
    {bytes : List UInt8} {outcome : Except Fault Log} {names : List Text}
    (h : Materialized files path generated bytes written outcome)
    (hbelow : GeneratedFile.IsBelow root names generated) :
    FileTree.Adds (generatedSuffix <:+ ·) files written := by
  have hgrows : files.Grows written := by
    cases h with
    | stored way stores => exact way.grows.trans stores.grows
    | refused way | failed way => exact way.grows
  refine ⟨hgrows, fun l => ?_⟩
  rcases (h.confined hbelow.parts_ne_nil).nodes l with hsame | ⟨hnone, hnew, -⟩ | ⟨-, hlocate, -⟩
  · exact .inl hsame
  · exact .inr (.inl ⟨hnone, hnew⟩)
  · obtain ⟨above, -, rfl⟩ := FileTree.location_below hbelow hlocate
    obtain ⟨name, hname, hends⟩ := hbelow.last
    exact .inr (.inr ⟨name, by rw [List.getLast?_append, hname, Option.some_or], hends⟩)

/-- The path of a component does not lead up below the source directory, and its name is not that of
a generated file. -/
theorem Target.IsOf.name_path (h : target.IsOf settings message) : ∃ dirs name,
    target.path = settings.sourcePath.below (dirs ++ [name]) ∧
      Text.ofString ".." ∉ dirs ++ [name] ∧ ¬ generatedSuffix <:+ name := by
  obtain ⟨generated, hgenerated, -⟩ := h.exists_generated
  obtain ⟨path, hpath, hends⟩ := FileUri.endsIn_of_isComponent h.isComponent
  obtain rfl : target.path = path := by
    rw [h.path] at hpath
    exact Option.some.inj (Except.ok.inj hpath)
  obtain ⟨dirs, hbelow, rfl⟩ :=
    GeneratedFile.exists_below_of_ofComponent? (List.isSuffixOf_iff_suffix.mpr hends) hgenerated
  obtain ⟨names, hnames⟩ := GeneratedFile.exists_isBelow hgenerated
  obtain rfl : dirs.map Text.lower ++ [GeneratedFile.nameOf target.path.name] = names :=
    Path.below_inj.mp hnames.eq
  refine ⟨dirs, target.path.name, Path.relativeTo?_eq_some_iff.mp hbelow, ?_, ?_⟩
  · rw [List.mem_append, List.mem_singleton, not_or]
    constructor
    · intro hup
      refine hnames.down (List.mem_append_left _ (List.mem_map.mpr ⟨_, hup, ?_⟩))
      decide +kernel
    · intro hup
      rw [← hup] at hends
      exact absurd hends (by decide +kernel)
  · intro hgenerated
    refine GeneratedFile.not_both_suffixes ?_ hends
    exact (Text.suffix_lower_iff GeneratedFile.steady_generatedSuffix).mpr
      ⟨generatedSuffix, hgenerated, GeneratedFile.flatMap_lower_generatedSuffix⟩

/-- The text on disk depends on the bytes that are read, and not on why none are read. -/
theorem diskText_congr {files written : FileTree} {path : Path}
    (h : ∀ bytes, written.readFile path = .ok bytes ↔ files.readFile path = .ok bytes) :
    (diskText written path).map (·.1) = (diskText files path).map (·.1) := by
  cases hcheck : checkPath path.text with
  | error e =>
    unfold diskText
    rw [FileTree.readFile_of_checkPath hcheck, FileTree.readFile_of_checkPath hcheck]
  | ok _ =>
    cases hread : files.readFile path with
    | ok bytes =>
      unfold diskText
      rw [hread, (h bytes).mpr hread]
    | error e =>
      cases hwritten : written.readFile path with
      | ok bytes =>
        rw [(h bytes).mp hwritten] at hread
        cases hread
      -- The system may have another reason to refuse now, but that only goes on record.
      | error e' =>
        unfold diskText
        rw [hread, hwritten]
        dsimp only
        rw [FileTree.isSystem_of_guard hcheck hread, FileTree.isSystem_of_guard hcheck hwritten]
        rfl

/-- The block of one component does not depend on what was written for another. -/
theorem decidingBlock_of_adds {files written : FileTree}
    (h : FileTree.Adds (generatedSuffix <:+ ·) files written) (hrooted : files.Rooted)
    (hsource : Text.ofString ".." ∉ settings.sourcePath.parts)
    (htarget : target.IsOf settings message) :
    decidingBlock extractor written target = decidingBlock extractor files target := by
  obtain ⟨dirs, name, hpath, hdown, hname⟩ := htarget.name_path
  have hread : ∀ bytes, written.readFile target.path = .ok bytes ↔
      files.readFile target.path = .ok bytes := by
    intro bytes
    have hlast : target.path.parts.getLast? = some name := by
      rw [hpath, Path.below, ← List.append_assoc, List.getLast?_concat]
    refine h.readFile_eq_ok_iff hrooted ?_ hlast hname
    rw [hpath, Path.below, List.mem_append, not_or]
    exact ⟨hsource, hdown⟩
  have hmap : ∀ found : Except Fault (Option Text × Log),
      (found.map fun found => found.1.bind (pieceOf? extractor))
        = (found.map (·.1)).map (·.bind (pieceOf? extractor)) := by
    intro found
    cases found <;> rfl
  unfold decidingBlock
  rw [hmap, hmap, diskText_congr hread]

/-! ## Trees stay rooted -/

theorem rooted_materialize {files : FileTree} (h : files.Rooted) (settings : Settings) (path : Path)
    (text : List Char) : (materialize settings files path text).1.Rooted := by
  unfold materialize GeneratedFile.ensure
  cases GeneratedFile.ofComponent? settings path with
  | none => exact h
  | some generated =>
    have hmade := h.makeDirectories generated.parent
    rcases hdone : files.makeDirectories generated.parent with ⟨made, _ | e⟩
    all_goals
      rw [hdone] at hmade
      dsimp only
      rw [hdone]
      dsimp only
    · cases hwritten : made.writeFile generated (Utf8.encodeChars text) with
      | ok written => exact hmade.writeFile hwritten
      | error e => exact hmade
    · exact hmade

theorem rooted_incoming (h : s.files.Rooted) (extractor : Extractor) (message : Members) :
    (incoming extractor message s).1.files.Rooted := by
  rw [incoming_files, prepare_eq]
  have hunwrapped : (unwrap message s).session.files.Rooted := by
    rwa [(unwrap_kept message s).2]
  have hplanning := planning_planFor extractor (unwrap message s).message
    (unwrap message s).changed (unwrap message s).session
  generalize planFor extractor (unwrap message s).message (unwrap message s).changed
    (unwrap message s).session = result at hplanning ⊢
  cases hplanning with
  | misnamed | foreign | unread | blockless => exact hunwrapped
  | @unwritten target block _ _ _ _ _ _ written_eq
  | @redirected target block _ _ _ _ _ _ written_eq =>
    have hwritten := rooted_materialize hunwrapped (unwrap message s).session.settings target.path
      block.sourceText
    rw [written_eq] at hwritten
    exact hwritten

/-- A session stays rooted as long as all edits of files leave the tree rooted. -/
theorem rooted_after (extractor : Extractor) {turns : List Turn} (h : s.files.Rooted)
    (hedits : ∀ tree, Turn.files tree ∈ turns → tree.Rooted) :
    (after extractor turns s).files.Rooted := by
  induction turns generalizing s with
  | nil => exact h
  | cons t turns ih =>
    refine ih ?_ fun tree htree => hedits tree (List.mem_cons_of_mem t htree)
    cases t with
    | editor body =>
      rw [turn, fromEditor, pass_files]
      split
      · exact rooted_incoming h extractor _
      · exact h
    | server body =>
      rw [turn, fromServer, pass_files]
      split
      · rwa [outgoing_files]
      · exact h
    | files tree => exact hedits tree List.mem_cons_self

/-! ## What a message comes to -/

/-- The component that a message is redirected for and the block that decides its offset, if the
message is redirected. -/
def redirection? (extractor : Extractor) (settings : Settings) (files : FileTree)
    (message : Members) : Option (Target × ScriptBlock) :=
  match target? settings message with
  | .ok (some target) =>
    (decidingBlock extractor files target).toOption.join.map fun block => (target, block)
  | _ => none

theorem redirection?_eq_some_iff {files : FileTree} :
    redirection? extractor settings files message = some (target, block) ↔
      target? settings message = .ok (some target) ∧
        decidingBlock extractor files target = .ok (some block) := by
  constructor
  · intro h
    unfold redirection? at h
    split at h
    · rename_i target htarget
      obtain ⟨block, hblock, heq⟩ := Option.map_eq_some_iff.mp h
      obtain ⟨rfl, rfl⟩ := Prod.mk.inj heq
      exact ⟨htarget, Traffic.toOption_eq_some (Option.join_eq_some_iff.mp hblock)⟩
    · cases h
  · rintro ⟨htarget, hblock⟩
    rw [redirection?, htarget]
    dsimp only
    rw [hblock]
    rfl

/-- The offset that a message puts under a key. -/
def offsetFor? (message : Members) (redirection : Option (Target × ScriptBlock)) (key : LedgerKey) :
    Option Int :=
  redirection.bind fun (target, block) =>
    if key = .document target.uri ∨ (requestKey? message).map (.request .editor) = some key then
      some block.lineOffset
    else none

/-- The component that a message puts under a generated URI. -/
def componentFor? (redirection : Option (Target × ScriptBlock)) (generated : Text) : Option Text :=
  redirection.bind fun (target, _) =>
    if generated = target.generated then some target.uri else none

/-- What a message comes to, by its redirection: what is forwarded, the settings that stay, what is
found afterwards, and what is new in the files. -/
structure Comes (extractor : Extractor) (message : Members) (s : Session)
    (redirection : Option (Target × ScriptBlock)) : Prop where
  result : (incoming extractor message s).2 = .ok (redirection.map fun (target, block) =>
    Json.shiftMembers (-block.lineOffset) (redirect extractor target block message))
  settings : (incoming extractor message s).1.settings = s.settings
  offsets : ∀ key, (incoming extractor message s).1.ledger.get? key
    = (offsetFor? message redirection key).or (s.ledger.get? key)
  components : ∀ generated, (incoming extractor message s).1.uris.get? generated
    = (componentFor? redirection generated).or (s.uris.get? generated)
  files : FileTree.Adds (generatedSuffix <:+ ·) s.files (incoming extractor message s).1.files

/-- The entries that the map drops when the URI of a message is remembered. -/
def Plan.forgotten (plan : Plan) (s : Session) : UriMap :=
  match plan with
  | keep _ => []
  | redirect target _ _ _ =>
    Lru.evicted s.settings.maxTracked (s.uris.insert target.generated target.uri)

/-- A body with a message passes without an exception, and neither the ledger nor the map drops an
entry for it. -/
structure Smooth (extractor : Extractor) (body : List UInt8) (message : Members) (s : Session) :
    Prop where
  adapted : ∃ result, (incoming extractor message s).2 = .ok result
  passed : ∃ out, (fromEditor extractor body s).2 = .ok out
  complete : ∀ plan, (prepare extractor message s).2 = .ok plan →
    plan.evicted (prepare extractor message s).1 = [] ∧
      plan.forgotten (prepare extractor message s).1 = []

theorem toOption_isSome_iff {ε α : Type} {x : Except ε α} :
    x.toOption.isSome = true ↔ ∃ a, x = .ok a := by
  cases x <;> simp [Except.toOption]

/-- Whether a body passes smoothly can be found out by passing it. -/
instance (extractor : Extractor) (body : List UInt8) (message : Members) (s : Session) :
    Decidable (Smooth extractor body message s) :=
  decidable_of_iff ((incoming extractor message s).2.toOption.isSome = true ∧
    (fromEditor extractor body s).2.toOption.isSome = true ∧
      ∀ plan ∈ (prepare extractor message s).2.toOption,
        plan.evicted (prepare extractor message s).1 = [] ∧
          plan.forgotten (prepare extractor message s).1 = [])
    ⟨fun ⟨hadapted, hpassed, hcomplete⟩ => ⟨toOption_isSome_iff.mp hadapted,
      toOption_isSome_iff.mp hpassed, fun plan hplan => hcomplete plan (by rw [hplan]; rfl)⟩,
    fun h => ⟨toOption_isSome_iff.mpr h.adapted, toOption_isSome_iff.mpr h.passed,
      fun plan hplan => h.complete plan (Traffic.toOption_eq_some hplan)⟩⟩

theorem Redirected.get?_ledger {result : Option Members}
    (h : Redirected extractor message s target block result) (huri : target.uri ≠ [])
    (hcomplete : (s.ledger.entered block.lineOffset (some target.uri) .editor
      (requestKey? message)).evicted s.settings.maxTracked = []) (key : LedgerKey) :
    (incoming extractor message s).1.ledger.get? key
      = (offsetFor? message (some (target, block)) key).or (s.ledger.get? key) := by
  obtain ⟨-, id?, hid, hrecord⟩ := Ledger.record_eq (Prod.ext rfl h.recorded)
  have hkey : requestKey? message = id? := by
    rw [requestKey?, hid]
    rfl
  rw [hkey] at hcomplete
  rw [h.ledger.trans hrecord, Lru.trim_eq_self hcomplete, Ledger.entered, Ledger.get?_enter,
    Ledger.get?_enter, Ledger.documentKey?_of_ne_nil huri, offsetFor?, Option.bind_some, hkey]
  dsimp only
  by_cases hrequest : id?.map (LedgerKey.request .editor) = some key
  · rw [if_pos hrequest, if_pos (.inr hrequest), Option.some_or]
  · rw [if_neg hrequest]
    by_cases hdocument : key = .document target.uri
    · rw [if_pos (by rw [hdocument]), if_pos (.inl hdocument), Option.some_or]
    · rw [if_neg (fun h => hdocument (Option.some.inj h).symm), if_neg (by tauto), Option.none_or]

theorem Redirected.get?_uris {result : Option Members}
    (h : Redirected extractor message s target block result)
    (hsettings : settingsBy message s.settings = s.settings)
    (hcomplete : (s.uris.insert target.generated target.uri).evicted s.settings.maxTracked = [])
    (generated : Text) : (incoming extractor message s).1.uris.get? generated
      = (componentFor? (some (target, block)) generated).or (s.uris.get? generated) := by
  rw [h.uris, hsettings, UriMap.register, componentFor?, Option.bind_some]
  dsimp only
  rw [Lru.trim_eq_self hcomplete, Lru.get?_insert]
  split <;> rfl

theorem comes_of_smooth {body : List UInt8}
    (hmethod : Json.get? "method" message ≠ some (.str "initialize"))
    (h : Smooth extractor body message s) :
    Comes extractor message s (redirection? extractor s.settings s.files message) := by
  have hown : ownOptions? message = none := if_neg hmethod
  have hsettings : settingsBy message s.settings = s.settings := by rw [settingsBy, hown]
  have hunwrap := unwrap_of_no_options hown s
  obtain ⟨result, hok⟩ := h.adapted
  rcases incoming_cases hok with hkept | ⟨target, block, generated, hredirects, hredirected⟩
  · have hresult : result = none := by rw [hkept.result, hunwrap]
    have hnone : redirection? extractor s.settings s.files message = none := by
      rw [Option.eq_none_iff_forall_ne_some]
      rintro ⟨target, block⟩ hsome
      obtain ⟨htarget, hblock⟩ := redirection?_eq_some_iff.mp hsome
      rw [← hsettings] at htarget
      have hredirected := incoming_redirected (by rwa [hunwrap]) hblock hok
      rw [hresult] at hredirected
      cases hredirected.result
    rw [hnone]
    refine ⟨by rw [hok, hresult]; rfl, hkept.settings.trans hsettings, fun key => ?_,
      fun generated => ?_, ?_⟩
    · rw [hkept.ledger]
      rfl
    · rw [hkept.uris]
      rfl
    · rw [hkept.files]
      exact .refl _ _
  · have htarget := hredirects.isOf.target?_eq
    obtain ⟨seen, hplan⟩ := plan_of_ok htarget hredirects.decides hok
    obtain ⟨hevicted, hforgotten⟩ := h.complete _ hplan
    obtain ⟨hprepared, hledger, huris⟩ := prepare_kept extractor message s
    rw [Plan.evicted, hprepared, hledger, hsettings, hunwrap] at hevicted
    rw [Plan.forgotten, hprepared, huris, hsettings] at hforgotten
    rw [hsettings, hunwrap] at htarget
    rw [redirection?_eq_some_iff.mpr ⟨htarget, hredirects.decides⟩]
    have huri := (UriMap.hasScheme_of_toGenerated? hredirects.isOf.generated).1.ne_nil
    refine ⟨?_, hredirected.settings.trans hsettings, hredirected.get?_ledger huri hevicted,
      hredirected.get?_uris hsettings hforgotten, ?_⟩
    · rw [hok, hredirected.result, hunwrap]
      rfl
    · obtain ⟨generated, log, hfile, hmaterialized⟩ := hredirected.files
      obtain ⟨names, hbelow⟩ := GeneratedFile.exists_isBelow hfile
      exact hmaterialized.adds hbelow

/-! ## One message after another -/

/-- No message changes the redirection of another. -/
theorem Comes.redirection?_eq {redirection : Option (Target × ScriptBlock)}
    (h : Comes extractor message s redirection) (hrooted : s.files.Rooted)
    (hsource : Text.ofString ".." ∉ s.settings.sourcePath.parts) :
    redirection? extractor (incoming extractor message s).1.settings
      (incoming extractor message s).1.files message'
        = redirection? extractor s.settings s.files message' := by
  rw [h.settings]
  unfold redirection?
  split
  · rename_i target htarget
    rw [decidingBlock_of_adds h.files hrooted hsource (Target.isOf htarget)]
  · rfl

/-- Two messages are about components with different URIs and generated URIs, and have different
ids if both are requests. -/
structure Apart (settings : Settings) (message message' : Members) : Prop where
  targets : ∀ target target', target? settings message = .ok (some target) →
    target? settings message' = .ok (some target') →
      target.uri ≠ target'.uri ∧ target.generated ≠ target'.generated
  requests : ∀ id, requestKey? message = some id → requestKey? message' ≠ some id

instance (settings : Settings) (message message' : Members) :
    Decidable (Apart settings message message') :=
  decidable_of_iff ((∀ target ∈ (target? settings message).toOption.join,
      ∀ target' ∈ (target? settings message').toOption.join,
        target.uri ≠ target'.uri ∧ target.generated ≠ target'.generated) ∧
      ∀ id ∈ requestKey? message, requestKey? message' ≠ some id)
    ⟨fun ⟨htargets, hrequests⟩ => ⟨fun target target' htarget htarget' =>
      htargets target (by rw [htarget]; rfl) target' (by rw [htarget']; rfl), hrequests⟩,
    fun h => ⟨fun target htarget target' htarget' => h.targets target target'
      (Traffic.toOption_eq_some (Option.join_eq_some_iff.mp htarget))
      (Traffic.toOption_eq_some (Option.join_eq_some_iff.mp htarget')), h.requests⟩⟩

/-- What is looked up in one session or the other is the same. -/
structure AnswersAlike (s s' : Session) : Prop where
  offsets : ∀ uri origin id, (s.ledger.lookup uri origin id).map (·.1)
    = (s'.ledger.lookup uri origin id).map (·.1)
  components : ∀ generated, (s.uris.cached generated).1 = (s'.uris.cached generated).1

/-- Of two values that are not both there, it does not matter which is looked for first. -/
theorem or_or_comm {α : Type} {a b : Option α} (h : a = none ∨ b = none) (c : Option α) :
    a.or (b.or c) = b.or (a.or c) := by
  rcases h with rfl | rfl
  · rw [Option.none_or, Option.none_or]
  · rw [Option.none_or, Option.none_or]

theorem Apart.offsetFor?_eq_none {files files' : FileTree} (h : Apart settings message message')
    (key : LedgerKey) :
    offsetFor? message (redirection? extractor settings files message) key = none ∨
      offsetFor? message' (redirection? extractor settings files' message') key = none := by
  by_contra hboth
  rw [not_or, ← ne_eq, ← ne_eq, ← Option.isSome_iff_ne_none, ← Option.isSome_iff_ne_none] at hboth
  obtain ⟨⟨offset, hoffset⟩, offset', hoffset'⟩ :=
    hboth.imp Option.isSome_iff_exists.mp Option.isSome_iff_exists.mp
  obtain ⟨⟨target, block⟩, hredirection, hkey⟩ := Option.bind_eq_some_iff.mp hoffset
  obtain ⟨⟨target', block'⟩, hredirection', hkey'⟩ := Option.bind_eq_some_iff.mp hoffset'
  have hkey := (Option.ite_none_right_eq_some.mp hkey).1
  have hkey' := (Option.ite_none_right_eq_some.mp hkey').1
  have htargets := h.targets target target' (redirection?_eq_some_iff.mp hredirection).1
    (redirection?_eq_some_iff.mp hredirection').1
  -- A key is that of a document or of a request, and the messages share neither.
  rcases hkey with rfl | hrequest
  · rcases hkey' with hdocument | hrequest'
    · exact htargets.1 (LedgerKey.document.inj hdocument)
    · obtain ⟨id', -, heq⟩ := Option.map_eq_some_iff.mp hrequest'
      cases heq
  · obtain ⟨id, hid, rfl⟩ := Option.map_eq_some_iff.mp hrequest
    rcases hkey' with hdocument | hrequest'
    · cases hdocument
    · obtain ⟨id', hid', heq⟩ := Option.map_eq_some_iff.mp hrequest'
      obtain rfl := (LedgerKey.request.inj heq).2
      exact h.requests id' hid hid'

theorem Apart.componentFor?_eq_none {files files' : FileTree}
    (h : Apart settings message message') (generated : Text) :
    componentFor? (redirection? extractor settings files message) generated = none ∨
      componentFor? (redirection? extractor settings files' message') generated = none := by
  by_contra hboth
  rw [not_or, ← ne_eq, ← ne_eq, ← Option.isSome_iff_ne_none, ← Option.isSome_iff_ne_none] at hboth
  obtain ⟨⟨uri, huri⟩, uri', huri'⟩ :=
    hboth.imp Option.isSome_iff_exists.mp Option.isSome_iff_exists.mp
  obtain ⟨⟨target, block⟩, hredirection, hkey⟩ := Option.bind_eq_some_iff.mp huri
  obtain ⟨⟨target', block'⟩, hredirection', hkey'⟩ := Option.bind_eq_some_iff.mp huri'
  have htargets := h.targets target target' (redirection?_eq_some_iff.mp hredirection).1
    (redirection?_eq_some_iff.mp hredirection').1
  exact htargets.2 ((Option.ite_none_right_eq_some.mp hkey).1.symm.trans
    (Option.ite_none_right_eq_some.mp hkey').1)

/-- Two messages one after the other record the same in either order. -/
theorem AnswersAlike.of_comes (hapart : Apart s.settings message message')
    (hfirst : Comes extractor message s (redirection? extractor s.settings s.files message))
    (hfirst' : Comes extractor message' s (redirection? extractor s.settings s.files message'))
    (hlast : Comes extractor message (incoming extractor message' s).1
      (redirection? extractor s.settings s.files message))
    (hlast' : Comes extractor message' (incoming extractor message s).1
      (redirection? extractor s.settings s.files message')) :
    AnswersAlike (incoming extractor message' (incoming extractor message s).1).1
      (incoming extractor message (incoming extractor message' s).1).1 := by
  refine ⟨Ledger.lookup_congr fun key => ?_, fun generated => ?_⟩
  · rw [hlast'.offsets, hfirst.offsets, hlast.offsets, hfirst'.offsets]
    exact (or_or_comm (hapart.offsetFor?_eq_none key) _).symm
  · rw [UriMap.cached_fst, UriMap.cached_fst, hlast'.components, hfirst.components,
      hlast.components, hfirst'.components]
    exact (or_or_comm (hapart.componentFor?_eq_none generated) _).symm

/-! ## Bodies -/

variable {body body' : List UInt8}

theorem Smooth.session (h : Smooth extractor body message s)
    (hbody : s.decode body = .object message) :
    (fromEditor extractor body s).1 = (incoming extractor message s).1 := by
  obtain ⟨result, hok⟩ := h.adapted
  rw [fromEditor, pass_session hbody, hok]

/-- Two bodies pass in either order with the same results, and what is looked up afterwards is the
same. -/
structure Commute (extractor : Extractor) (body body' : List UInt8) (s : Session) : Prop where
  first : ∃ out, (fromEditor extractor body s).2 = .ok out ∧
    (fromEditor extractor body (fromEditor extractor body' s).1).2 = .ok out
  second : ∃ out, (fromEditor extractor body' s).2 = .ok out ∧
    (fromEditor extractor body' (fromEditor extractor body s).1).2 = .ok out
  alike : AnswersAlike (fromEditor extractor body' (fromEditor extractor body s).1).1
    (fromEditor extractor body (fromEditor extractor body' s).1).1

/-- Two bodies pass smoothly one after the other. -/
structure SmoothInTurn (extractor : Extractor) (body : List UInt8) (message : Members)
    (body' : List UInt8) (message' : Members) (s : Session) : Prop where
  first : Smooth extractor body message s
  second : Smooth extractor body' message' (fromEditor extractor body s).1

/-- A message comes to the same behind another as without it. -/
theorem comes_behind (hbody : s.decode body = .object message)
    (hmethod : Json.get? "method" message ≠ some (.str "initialize"))
    (hmethod' : Json.get? "method" message' ≠ some (.str "initialize"))
    (hsource : Text.ofString ".." ∉ s.settings.sourcePath.parts) (hrooted : s.files.Rooted)
    (hsmooth : SmoothInTurn extractor body message body' message' s) :
    Comes extractor message' (incoming extractor message s).1
      (redirection? extractor s.settings s.files message') := by
  have hsecond := hsmooth.second
  rw [hsmooth.first.session hbody] at hsecond
  rw [← (comes_of_smooth hmethod hsmooth.first).redirection?_eq hrooted hsource]
  exact comes_of_smooth hmethod' hsecond

/-- So it passes as the same bytes. -/
theorem passes_alike (hbody : s.decode body = .object message)
    (h : Smooth extractor body message s) {s' : Session} (hlimits : s'.limits = s.limits)
    (hresult : (incoming extractor message s').2 = (incoming extractor message s).2) :
    ∃ out, (fromEditor extractor body s).2 = .ok out ∧
      (fromEditor extractor body s').2 = .ok out := by
  obtain ⟨out, hout⟩ := h.passed
  have hbody' : s'.decode body = .object message := by rwa [decode, hlimits]
  refine ⟨out, hout, ?_⟩
  rw [← hout, fromEditor, fromEditor, pass_object hbody, pass_object hbody', hresult]

/-- **Messages about different components commute.** Let the source directory be spelled without
`..`, and let two messages that are not the first one be about components with different URIs and
generated URIs, and have different ids if both are requests. If both orders go without an exception
and without dropping an entry, the same two bodies are forwarded, and every lookup in the ledger and
in the map finds the same afterwards. -/
theorem fromEditor_commute (hbody : s.decode body = .object message)
    (hbody' : s.decode body' = .object message')
    (hmethod : Json.get? "method" message ≠ some (.str "initialize"))
    (hmethod' : Json.get? "method" message' ≠ some (.str "initialize"))
    (hsource : Text.ofString ".." ∉ s.settings.sourcePath.parts) (hrooted : s.files.Rooted)
    (hapart : Apart s.settings message message')
    (hsmooth : SmoothInTurn extractor body message body' message' s)
    (hsmooth' : SmoothInTurn extractor body' message' body message s) :
    Commute extractor body body' s := by
  have hfirst := comes_of_smooth hmethod hsmooth.first
  have hfirst' := comes_of_smooth hmethod' hsmooth'.first
  have hlast' := comes_behind hbody hmethod hmethod' hsource hrooted hsmooth
  have hlast := comes_behind hbody' hmethod' hmethod hsource hrooted hsmooth'
  have hsession := hsmooth.first.session hbody
  have hsession' := hsmooth'.first.session hbody'
  have hlimits := fromEditor_limits extractor body s
  have hlimits' := fromEditor_limits extractor body' s
  constructor
  case first =>
    rw [hsession'] at hlimits' ⊢
    exact passes_alike hbody hsmooth.first hlimits' (hlast.result.trans hfirst.result.symm)
  case second =>
    rw [hsession] at hlimits ⊢
    exact passes_alike hbody' hsmooth'.first hlimits (hlast'.result.trans hfirst'.result.symm)
  case alike =>
    have hagain : (fromEditor extractor body s).1.decode body' = .object message' := by
      rwa [decode, hlimits]
    have hagain' : (fromEditor extractor body' s).1.decode body = .object message := by
      rwa [decode, hlimits']
    rw [hsmooth.second.session hagain, hsmooth'.second.session hagain', hsession, hsession']
    exact .of_comes hapart hfirst hfirst' hlast hlast'

/-- The text of one component comes from the editor, and the other is read from disk. -/
theorem fromEditor_commute_opened :
    ∃ body body' s message message',
      body = Utf8.ofString ("\x7b\"method\":\"open\",\"params\":\x7b\"textDocument\":\x7b"
        ++ "\"uri\":\"file:///src/A.vue\",\"text\":\"<script lang=gleam>x</script>\"\x7d\x7d\x7d") ∧
      body' = Utf8.ofString ("\x7b\"id\":1,\"method\":\"hover\",\"params\":\x7b\"line\":4,"
        ++ "\"textDocument\":\x7b\"uri\":\"file:///src/B.vue\"\x7d\x7d\x7d") ∧
      s = start ⟨⟨.root, []⟩, "src", "gen", "gleam", "gleam", 8⟩
        ((FileTree.empty []).plant ["src", "B.vue"]
          (.file (Utf8.ofString "\n<script lang=gleam>y</script>") false)) ∧
      s.decode body = .object message ∧ s.decode body' = .object message' ∧
      Json.get? "method" message ≠ some (.str "initialize") ∧
      Json.get? "method" message' ≠ some (.str "initialize") ∧
      Text.ofString ".." ∉ s.settings.sourcePath.parts ∧ s.files.Rooted ∧
      Apart s.settings message message' ∧
      SmoothInTurn (.ofLang "gleam") body message body' message' s ∧
      SmoothInTurn (.ofLang "gleam") body' message' body message s ∧
      (fromEditor (.ofLang "gleam") body' s).2.toOption
        = some (Utf8.ofString ("\x7b\"id\":1,\"method\":\"hover\",\"params\":\x7b\"line\":3,"
          ++ "\"textDocument\":\x7b\"uri\":\"file:///src/gen/b.gleam\"\x7d\x7d\x7d")) ∧
      Commute (.ofLang "gleam") body body' s := by
  refine ⟨_, _, _, [(Text.ofString "method", .str "open"),
    (Text.ofString "params", .obj [(Text.ofString "textDocument",
      .obj [(Text.ofString "uri", .str "file:///src/A.vue"),
        (Text.ofString "text", .str "<script lang=gleam>x</script>")])])],
    [(Text.ofString "id", .int 1), (Text.ofString "method", .str "hover"),
      (Text.ofString "params", .obj [(Text.ofString "line", .int 4),
        (Text.ofString "textDocument", .obj [(Text.ofString "uri", .str "file:///src/B.vue")])])],
    rfl, rfl, rfl, ?_⟩
  generalize hs : start _ _ = s
  generalize hbody : Utf8.ofString _ = body
  generalize hbody' : Utf8.ofString _ = body'
  generalize hmessage : [(Text.ofString "method", _), _] = message
  generalize hmessage' : [(Text.ofString "id", _), _, _] = message'
  have hmethod : Json.get? "method" message ≠ some (.str "initialize") := by
    subst hmessage
    decide
  have hmethod' : Json.get? "method" message' ≠ some (.str "initialize") := by
    subst hmessage'
    decide
  have hsource : Text.ofString ".." ∉ s.settings.sourcePath.parts := by
    subst hs
    decide +kernel
  have hrooted : s.files.Rooted := by
    subst hs
    unfold FileTree.Rooted
    decide +kernel
  have hchecked : (s.decode body = .object message ∧
        s.decode body' = .object message') ∧
      Apart s.settings message message' ∧
      (Smooth (.ofLang "gleam") body message s ∧
        Smooth (.ofLang "gleam") body' message' (fromEditor (.ofLang "gleam") body s).1) ∧
      (Smooth (.ofLang "gleam") body' message' s ∧
        Smooth (.ofLang "gleam") body message (fromEditor (.ofLang "gleam") body' s).1) ∧
      (fromEditor (.ofLang "gleam") body' s).2.toOption
        = some (Utf8.ofString ("\x7b\"id\":1,\"method\":\"hover\",\"params\":\x7b\"line\":3,"
          ++ "\"textDocument\":\x7b\"uri\":\"file:///src/gen/b.gleam\"\x7d\x7d\x7d")) := by
    subst hbody hbody' hs hmessage hmessage'
    simp only [Utf8.ofString_append, Utf8.ofString_ofList, Text.ofString_ofList]
    decide +kernel
  obtain ⟨⟨hdecode, hdecode'⟩, hapart, ⟨hfirst, hsecond⟩, ⟨hfirst', hsecond'⟩, hout⟩ := hchecked
  exact ⟨hdecode, hdecode', hmethod, hmethod', hsource, hrooted, hapart, ⟨hfirst, hsecond⟩,
    ⟨hfirst', hsecond'⟩, hout, fromEditor_commute hdecode hdecode' hmethod hmethod' hsource hrooted
      hapart ⟨hfirst, hsecond⟩ ⟨hfirst', hsecond'⟩⟩

end Session

end SfcProxy
