import SfcProxy.Proofs.Json.RoundTrip
import SfcProxy.Proofs.Session.Effect
import SfcProxy.Proofs.Session.Offset
import SfcProxy.Proofs.Session.Stillness

/-!
# Adapted messages can be read

A message has the form of what is read: distinct names, rounded numbers and a limited depth. All
that an adaptation does keeps this form. It replaces texts and numbers, it takes members out, and
where it puts objects in, these are no deeper than those that they stand for.

## Main results

* `relocate_readable`: replacing URIs keeps the form
* `incoming_cases`: a message of the editor is kept or redirected
* `incoming_readable`, `outgoing_readable`: so do both adaptations
-/

namespace SfcProxy

namespace Json

/-! ## Members -/

theorem mem_of_get? {name : Text} {members : Members} {v : Json} (h : get? name members = some v) :
    (name, v) ∈ members := by
  induction members with
  | nil => cases h
  | cons entry rest ih =>
    obtain ⟨key, old⟩ := entry
    rw [get?] at h
    split at h
    · rename_i hkey
      cases h
      rw [hkey]
      exact List.mem_cons_self
    · exact List.mem_cons_of_mem _ (ih h)

/-- An object is a level of its own. -/
theorem Readable.depth_eq {depth : Nat} {members : Members} (h : Readable depth (.obj members)) :
    ∃ below, depth = below + 1 := by
  cases h
  exact ⟨_, rfl⟩

theorem Readable.get? {depth : Nat} {members : Members} {name : Text} {v : Json}
    (h : Readable (depth + 1) (.obj members)) (hv : Json.get? name members = some v) :
    Readable depth v := by
  cases h with
  | obj names parts => exact parts _ (mem_of_get? hv)

theorem Readable.erase {depth : Nat} {members : Members} (h : Readable (depth + 1) (.obj members))
    (name : Text) : Readable (depth + 1) (.obj (Json.erase name members)) := by
  cases h with
  | obj names parts =>
    refine .obj (names.sublist (List.filter_sublist.map _)) fun entry hentry => ?_
    exact parts entry (List.mem_filter.mp hentry).1

/-! ## Lines -/

theorem mapMembersItems_eq_map (replace : Text → Json → Option Json) (items : List Json) :
    mapMembersItems replace items = items.map (mapMembers replace) := by
  induction items with
  | nil => rfl
  | cons v rest ih => rw [mapMembersItems, ih, List.map_cons]

theorem mapMembersList_eq_map (replace : Text → Json → Option Json) (members : Members) :
    mapMembersList replace members = members.map fun entry =>
      (entry.1, (replace entry.1 entry.2).getD (mapMembers replace entry.2)) := by
  induction members with
  | nil => rfl
  | cons entry rest ih => rw [mapMembersList, ih, List.map_cons]

theorem readable_movedLine? {offset : Int} {name : Text} {v w : Json}
    (h : movedLine? offset name v = some w) (depth : Nat) : Readable depth w := by
  unfold movedLine? at h
  split at h
  · cases h
  · unfold shiftLine? at h
    split at h
    · unfold addOffset? at h
      split at h
      · split at h
        · cases h
          exact .int _
        · cases h
      · split at h
        · cases h
          exact .real (Double.rounded_addInt _ _)
        · cases h
      · cases h
    · cases h

/-- Moving lines keeps the form. -/
theorem Readable.shiftLines {depth : Nat} {v : Json} (h : Readable depth v) (offset : Int) :
    Readable depth (v.shiftLines offset) := by
  rw [shiftLines_eq_mapMembers]
  induction h with
  | null => exact .null
  | bool b => exact .bool b
  | int n => exact .int n
  | real rounded => exact .real rounded
  | str s => exact .str s
  | arr parts ih =>
    rw [mapMembers, mapMembersItems_eq_map]
    exact .arr (List.forall_mem_map.mpr ih)
  | obj names parts ih =>
    rw [mapMembers, mapMembersList_eq_map]
    refine .obj ?_ (List.forall_mem_map.mpr fun entry hentry => ?_)
    · rw [List.map_map]
      exact names
    dsimp only
    cases hmoved : movedLine? offset entry.1 entry.2 with
    | none => exact ih entry hentry
    | some w => exact readable_movedLine? hmoved _

/-! ## Distinct names -/

mutual

theorem keyed_of_readable : ∀ {depth : Nat} (v : Json), Readable depth v → v.Keyed
  | _, .arr items, .arr parts => keyedItems_of_readable items parts
  | _, .obj members, .obj _ parts => keyedMembers_of_readable members parts
  | _, .null, _ | _, .bool _, _ | _, .int _, _ | _, .real _, _ | _, .str _, _ => trivial

theorem keyedItems_of_readable : ∀ {depth : Nat} (items : List Json),
    (∀ v ∈ items, Readable depth v) → KeyedItems items
  | _, [], _ => trivial
  | _, v :: rest, h =>
    ⟨keyed_of_readable v (h v List.mem_cons_self),
      keyedItems_of_readable rest fun w hw => h w (List.mem_cons_of_mem _ hw)⟩

theorem keyedMember_of_readable (name : Text) : ∀ {depth : Nat} (v : Json), Readable depth v →
    v.KeyedMember name
  | _, .arr items, .arr parts => keyedItems_of_readable items parts
  | _, .obj members, .obj names parts => by
    rw [KeyedMember]
    split
    · exact ⟨names, keyedValues_of_readable members parts⟩
    · exact keyedMembers_of_readable members parts
  | _, .null, _ | _, .bool _, _ | _, .int _, _ | _, .real _, _ | _, .str _, _ => trivial

theorem keyedMembers_of_readable : ∀ {depth : Nat} (members : Members),
    (∀ entry ∈ members, Readable depth entry.2) → KeyedMembers members
  | _, [], _ => trivial
  | _, (name, v) :: rest, h =>
    ⟨keyedMember_of_readable name v (h _ List.mem_cons_self),
      keyedMembers_of_readable rest fun entry hentry => h entry (List.mem_cons_of_mem _ hentry)⟩

theorem keyedValues_of_readable : ∀ {depth : Nat} (members : Members),
    (∀ entry ∈ members, Readable depth entry.2) → KeyedValues members
  | _, [], _ => trivial
  | _, (_, v) :: rest, h =>
    ⟨keyed_of_readable v (h _ List.mem_cons_self),
      keyedValues_of_readable rest fun entry hentry => h entry (List.mem_cons_of_mem _ hentry)⟩

end

end Json

namespace Session

/-! ## Walks -/

section Relocate

open Relocation Json

variable {settings : Settings} {files : FileTree}

mutual

/-- Replacing URIs keeps the form. -/
theorem relocate_readable (calls : Nat) : ∀ {depth : Nat} (v : Json), Readable depth v →
    Yields (relocate settings files calls v) (Readable depth)
  | _, .arr items, .arr parts => by
    rw [relocate]
    exact .deeper fun _ => ((relocateItems_readable _ items parts).map fun _ => .arr)
  | _, .obj members, .obj names parts => by
    rw [relocate]
    refine .deeper fun _ => ((relocateMembers_readable _ members parts).map fun moved hmoved => ?_)
    exact .obj (hmoved.1 ▸ names) hmoved.2
  | _, .null, h | _, .bool _, h | _, .int _, h | _, .real _, h | _, .str _, h => by
    rw [relocate]
    · exact .deeper fun _ => .pure h
    all_goals nofun

theorem relocateItems_readable (calls : Nat) : ∀ {depth : Nat} (items : List Json),
    (∀ v ∈ items, Readable depth v) →
    Yields (relocateItems settings files calls items) fun moved => ∀ v ∈ moved, Readable depth v
  | _, [], h => .pure h
  | _, v :: rest, h => by
    rw [List.forall_mem_cons] at h
    rw [relocateItems]
    refine (relocate_readable calls v h.1).bind fun moved hmoved => ?_
    refine (relocateItems_readable calls rest h.2).bind fun others hothers => ?_
    exact .pure (List.forall_mem_cons.mpr ⟨hmoved, hothers⟩)

theorem relocateMember_readable (calls : Nat) (name : Text) : ∀ {depth : Nat} (v : Json),
    Readable depth v → Yields (relocateMember settings files calls name v) (Readable depth)
  | _, .str uri, h => by
    rw [relocateMember]
    split
    · exact (yields_anything _).map fun moved _ => .str moved
    · exact .deeper fun _ => .pure h
  | _, .arr items, .arr parts => by
    rw [relocateMember]
    exact .deeper fun _ => ((relocateItems_readable _ items parts).map fun _ => .arr)
  | depth + 1, .obj members, .obj names parts => by
    rw [relocateMember]
    refine .deeper fun _ => ?_
    split
    · have hdone : Readable (depth + 1) (.obj []) := .obj List.nodup_nil nofun
      exact (relocateKeyed_readable _ [] members hdone parts).map fun _ h => h
    · exact (relocateMembers_readable _ members parts).map fun moved hmoved =>
        .obj (hmoved.1 ▸ names) hmoved.2
  | _, .null, h | _, .bool _, h | _, .int _, h | _, .real _, h => by
    rw [relocateMember]
    · exact .deeper fun _ => .pure h
    all_goals nofun

theorem relocateMembers_readable (calls : Nat) : ∀ {depth : Nat} (members : Members),
    (∀ entry ∈ members, Readable depth entry.2) →
    Yields (relocateMembers settings files calls members) fun moved =>
      moved.map (·.1) = members.map (·.1) ∧ ∀ entry ∈ moved, Readable depth entry.2
  | _, [], h => .pure ⟨rfl, h⟩
  | _, (name, v) :: rest, h => by
    rw [List.forall_mem_cons] at h
    rw [relocateMembers]
    refine (relocateMember_readable calls name v h.1).bind fun moved hmoved => ?_
    refine (relocateMembers_readable calls rest h.2).bind fun others hothers => ?_
    refine .pure ⟨?_, List.forall_mem_cons.mpr ⟨hmoved, hothers.2⟩⟩
    rw [List.map_cons, List.map_cons, hothers.1]

theorem relocateKeyed_readable (calls : Nat) : ∀ {depth : Nat} (done members : Members),
    Readable (depth + 1) (.obj done) → (∀ entry ∈ members, Readable depth entry.2) →
    Yields (relocateKeyed settings files calls done members) fun moved =>
      Readable (depth + 1) (.obj moved)
  | _, done, [], hdone, _ => .pure hdone
  | _, done, (uri, v) :: rest, hdone, h => by
    rw [List.forall_mem_cons] at h
    rw [relocateKeyed]
    refine (yields_anything _).bind fun relocated _ => ?_
    refine (relocate_readable calls v h.1).bind fun moved hmoved => ?_
    exact relocateKeyed_readable calls _ rest (hdone.set relocated hmoved) h.2

end

/-- A message of the server keeps the form. -/
theorem outgoing_readable {message : Members} {s : Session} {adapted : Option Members} {depth : Nat}
    (h : Readable depth (.obj message)) (hok : (outgoing message s).2 = .ok adapted) :
    Readable depth (.obj (adapted.getD message)) := by
  obtain ⟨below, rfl⟩ := h.depth_eq
  rcases outgoing_cases message s with
    ⟨e, herror, -⟩ | ⟨key, relocated, out, htranslate, hout, hmoved⟩
  · rw [herror] at hok
    cases hok
  · rw [hout] at hok
    obtain rfl := Except.ok.inj hok
    obtain ⟨st, st', -, hsubject⟩ := translate_run htranslate
    have hrelocated : Readable (below + 1) (.obj relocated) := by
      rw [relocateSubject_eq] at hsubject
      split at hsubject
      · cases hsubject
        exact h
      · rename_i hnull
        have habout : Readable below (subject message) := by
          unfold subject
          cases hget : Json.get? (subjectName message) message with
          | none => exact .null
          | some about => exact h.get? hget
        have hset : Yields ((Json.set (subjectName message) · message)
            <$> relocate s.settings s.files s.limits.relocating (subject message))
            fun moved => Readable (below + 1) (.obj moved) :=
          (relocate_readable _ _ habout).map fun about => h.set (subjectName message)
        exact hset st relocated st' hsubject
    rw [(moveLines_eq_ok_iff.mp hmoved).2, ← Json.shiftLines_obj]
    exact hrelocated.shiftLines _

end Relocate

/-! ## Messages of the editor -/

variable {extractor : Extractor} {message : Members} {s : Session} {settings : Settings}
  {target : Target} {block : ScriptBlock}

theorem Target.IsOf.target?_eq (h : target.IsOf settings message) :
    target? settings message = .ok (some target) := by
  unfold target?
  rw [h.params]
  dsimp only
  rw [h.document]
  dsimp only
  rw [h.uri]
  dsimp only
  rw [h.isComponent, h.path, h.generated]
  rfl

/-- The session after a message that is not redirected: it has the settings that the options in the
message lead to, and is as it was otherwise. -/
structure Kept (extractor : Extractor) (message : Members) (s : Session) (result : Option Members) :
    Prop where
  result : result = (unwrap message s).changed
  settings : (incoming extractor message s).1.settings = settingsBy message s.settings
  ledger : (incoming extractor message s).1.ledger = s.ledger
  uris : (incoming extractor message s).1.uris = s.uris
  files : (incoming extractor message s).1.files = s.files

/-- A message of the editor that can be adapted is kept or redirected. -/
theorem incoming_cases {result : Option Members}
    (hok : (incoming extractor message s).2 = .ok result) :
    Kept extractor message s result ∨ ∃ target block generated,
      Redirects extractor message s target block generated ∧
        Redirected extractor message s target block result := by
  obtain ⟨hsettings, hledger, huris⟩ := prepare_kept extractor message s
  have hprepared := prepare_cases extractor message s
  have hincoming := incoming_eq extractor message s
  generalize hfiles : (prepare extractor message s).1.files = files at hprepared
  generalize (prepare extractor message s).2 = plan at hprepared hincoming
  cases hprepared with
  | kept =>
    rw [hincoming] at hok
    refine .inl ⟨(Except.ok.inj hok).symm, ?_, ?_, ?_, ?_⟩
    · rw [hincoming]
      exact hsettings
    · rw [hincoming]
      exact hledger
    · rw [hincoming]
      exact huris
    · rw [hincoming]
      exact hfiles
  | failed | unwritten =>
    rw [hincoming] at hok
    cases hok
  | redirected seen hredirects =>
    exact .inr ⟨_, _, _, hredirects,
      incoming_redirected hredirects.isOf.target?_eq hredirects.decides hok⟩

theorem readable_unwrap {depth : Nat} (h : (Json.obj message).Readable depth) (s : Session) :
    (Json.obj (unwrap message s).message).Readable depth := by
  rcases unwrap_cases message s with
    ⟨-, hsame⟩ | ⟨params, options, own, hparams, hoptions, -, hmessage, -⟩
  · rw [hsame]
    exact h
  · rw [hmessage]
    obtain ⟨_, rfl⟩ := h.depth_eq
    have hparams := h.get? hparams
    obtain ⟨_, rfl⟩ := hparams.depth_eq
    have hoptions := hparams.get? hoptions
    obtain ⟨below, rfl⟩ := hoptions.depth_eq
    have hkept : (keptOptions options).Readable (below + 1) := by
      unfold keptOptions
      split
      · exact .null
      · exact hoptions.erase ownSection
    exact h.set "params" (hparams.set "initializationOptions" hkept)

theorem readable_redirectDocument (extractor : Extractor) (block : ScriptBlock) {depth : Nat}
    (h : (Json.obj target.document).Readable depth) :
    (Json.obj (redirectDocument extractor target block)).Readable depth := by
  obtain ⟨_, rfl⟩ := h.depth_eq
  have huri := h.set "uri" (.str target.generated)
  rcases redirectDocument_cases extractor target block with hsame | ⟨text, text', -, hset⟩
  · rwa [hsame]
  · rw [hset]
    exact huri.set "text" (.str text')

/-- A change that is kept stands in for one that was an object already. -/
theorem readable_keptChanges {params : Members} {items : List Json} {depth : Nat}
    (hitems : Json.get? "contentChanges" params = some (.arr items))
    (h : (Json.arr items).Readable depth) :
    (Json.arr (keptChanges extractor params)).Readable depth := by
  have hchanges : changes params = items := by
    rw [changes, hitems]
    rfl
  cases h with
  | arr parts =>
    refine .arr fun kept hkept => ?_
    obtain ⟨text, htext, hpiece⟩ := List.mem_filterMap.mp hkept
    obtain ⟨change, hchange, htext⟩ := List.mem_filterMap.mp htext
    obtain ⟨piece, -, rfl⟩ := Option.map_eq_some_iff.mp hpiece
    cases change with
    | obj members =>
      obtain ⟨_, rfl⟩ := (parts _ (hchanges ▸ hchange)).depth_eq
      exact .obj (List.nodup_singleton _) (List.forall_mem_singleton.mpr (.str _))
    | null | bool _ | int _ | real _ | str _ | arr _ => cases htext

theorem readable_redirect {depth : Nat} (htarget : target.IsOf settings message)
    (h : (Json.obj message).Readable depth) :
    (Json.obj (redirect extractor target block message)).Readable depth := by
  obtain ⟨_, rfl⟩ := h.depth_eq
  have hparams := h.get? htarget.params
  obtain ⟨_, rfl⟩ := hparams.depth_eq
  have hdocument := hparams.set "textDocument"
    (readable_redirectDocument extractor block (hparams.get? htarget.document))
  refine h.set "params" ?_
  split
  · rename_i items hitems
    rw [Json.get?_set, if_neg (by decide)] at hitems
    exact hdocument.set "contentChanges" (readable_keptChanges hitems (hparams.get? hitems))
  · exact hdocument

/-- A message of the editor keeps the form. -/
theorem incoming_readable {out : Members} {depth : Nat} (h : (Json.obj message).Readable depth)
    (hok : (incoming extractor message s).2 = .ok (some out)) :
    (Json.obj out).Readable depth := by
  have hunwrapped := readable_unwrap h s
  rcases incoming_cases hok with hkept | ⟨target, block, generated, hredirects, hredirected⟩
  · have hresult := hkept.result
    rcases unwrap_cases message s with ⟨-, hsame⟩ | ⟨_, _, _, -, -, -, -, hchanged⟩
    · rw [hsame] at hresult
      cases hresult
    · rw [hchanged] at hresult
      exact Option.some.inj hresult ▸ hunwrapped
  · obtain rfl := Option.some.inj hredirected.result
    rw [← Json.shiftLines_obj]
    exact (readable_redirect hredirects.isOf hunwrapped).shiftLines _

end Session

end SfcProxy
