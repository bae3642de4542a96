import SfcProxy.Proofs.Alignment
import SfcProxy.Proofs.Session.Run

/-!
# The text that decides an offset

A message about a component is moved by the offset of a block, and that offset is recorded for the
component. Which block it is depends on the message and on the disk alone: it is the block of the
newest text without faults that the message itself carries, or else of the file on disk at that
time. Texts that earlier messages carried do not count. So what the ledger holds for a component
after a run is the offset that was last decided for it in this way.

## Main definitions

* `decidingBlock`: the block that decides the offset of a message
* `Decided`: what becomes of a message about a component
* `decided?`, `lastDecided`: the offset that a message decides, and the last one of a run

## Main results

* `lineOffset_nonneg`: no block has an offset below zero
* `incoming_decided`: what becomes of a message, whatever came before it
* `mem_ledger_after`: what the ledger holds after a run
* `offset_of_message_or_disk`: the two together
-/

namespace SfcProxy

namespace Session

/-- The block of a text has no offset below zero. -/
theorem lineOffset_nonneg {lang text : Text} {block : ScriptBlock}
    (h : pieceOf? (.ofLang lang) text = some block) : 0 ≤ block.lineOffset := by
  unfold pieceOf? Extractor.ofLang Component.extractText at h
  cases hchars : text.chars? with
  | none =>
    rw [hchars] at h
    cases h
  | some cs =>
    rw [hchars] at h
    dsimp only at h
    split at h
    · rename_i found hfound
      subst h
      have hblock : (Component.extract lang cs).block = some block := by
        rw [Except.ok.inj hfound]
      obtain ⟨pre, post, hspans⟩ := Component.exists_spans hblock
      obtain ⟨trimmed, hcontent, htrim⟩ := block.exists_trimmed
      rw [ScriptBlock.lineOffset_eq hspans.start hcontent htrim]
      omega
    · cases h

/-! ## The deciding block -/

/-- The block that decides the offset of a message about a component: that of the newest text
without faults that the message carries, or else that of the file on disk. -/
def decidingBlock (extractor : Extractor) (files : FileTree) (target : Target) :
    Except Fault (Option ScriptBlock) :=
  match (candidates target).findSome? (pieceOf? extractor) with
  | some block => .ok (some block)
  | none => (diskText files target.path).map fun found => found.1.bind (pieceOf? extractor)

variable {extractor : Extractor} {files : FileTree} {target : Target} {block : ScriptBlock}

/-- A deciding block is that of a text in the message or of the one on disk. -/
theorem exists_text_of_decidingBlock (h : decidingBlock extractor files target = .ok (some block)) :
    ∃ text, (text ∈ candidates target ∨ ∃ log, diskText files target.path = .ok (some text, log)) ∧
      pieceOf? extractor text = some block := by
  unfold decidingBlock at h
  split at h
  · rename_i found hfound
    cases h
    obtain ⟨text, hmem, hpiece⟩ := List.exists_of_findSome?_eq_some hfound
    exact ⟨text, .inl hmem, hpiece⟩
  · cases hdisk : diskText files target.path with
    | error e =>
      rw [hdisk] at h
      cases h
    | ok found =>
      obtain ⟨text?, log⟩ := found
      rw [hdisk] at h
      obtain ⟨text, rfl, hpiece⟩ := Option.bind_eq_some_iff.mp (Except.ok.inj h)
      exact ⟨text, .inr ⟨log, rfl⟩, hpiece⟩

/-- The deciding block is the one that is referred to. -/
theorem decidingBlock_eq (extractor : Extractor) (files : FileTree) (target : Target) :
    decidingBlock extractor files target = match reference extractor files target with
      | .error (_, e) => .error e
      | .ok found => .ok found.block := by
  unfold decidingBlock reference
  dsimp only
  cases (candidates target).findSome? (pieceOf? extractor) with
  | some block => rfl
  | none =>
    dsimp only
    cases diskText files target.path with
    | error e => rfl
    | ok found =>
      obtain ⟨text?, log⟩ := found
      cases text? <;> rfl

/-- The plan for a message about a component. -/
theorem planFor_of_target (extractor : Extractor) (changed : Option Members) {message : Members}
    {s : Session} (htarget : target? s.settings message = .ok (some target)) :
    match decidingBlock extractor s.files target with
    | .error e => (planFor extractor message changed s).2 = .error e
    | .ok none => (planFor extractor message changed s).2 = .ok (.keep changed)
    | .ok (some block) =>
      match (materialize s.settings s.files target.path block.sourceText).2 with
      | .error e => (planFor extractor message changed s).2 = .error e
      | .ok _ =>
        ∃ seen, (planFor extractor message changed s).2
          = .ok (.redirect target block seen message) := by
  rw [decidingBlock_eq]
  have hplanning := planning_planFor extractor message changed s
  generalize planFor extractor message changed s = result at hplanning ⊢
  cases hplanning with
  | misnamed target_eq | foreign target_eq =>
    rw [htarget] at target_eq
    cases target_eq
  | unread target_eq found_eq | blockless target_eq found_eq =>
    rw [htarget] at target_eq
    cases target_eq
    rw [found_eq]
  | unwritten target_eq found_eq written_eq =>
    rw [htarget] at target_eq
    cases target_eq
    rw [found_eq]
    dsimp only
    rw [written_eq]
  | redirected target_eq found_eq written_eq =>
    rw [htarget] at target_eq
    cases target_eq
    rw [found_eq]
    dsimp only
    rw [written_eq]
    exact ⟨_, rfl⟩

/-! ## What becomes of a message -/

/-- The offset of a message is decided by a block. It is recorded for the component, and the ledger
holds it from then on if its bound leaves room for a document and a request. The lines of the
redirected message move up by it, unless the id or the bound is refused or the lines cannot be
moved. -/
structure DecidedBy (extractor : Extractor) (message : Members) (s : Session) (target : Target)
    (block : ScriptBlock) : Prop where
  nonneg : 0 ≤ block.lineOffset
  recorded : (incoming extractor message s).1.ledger
    = (s.ledger.record (unwrap message s).session.settings.maxTracked block.lineOffset
        (some target.uri) .editor (requestId (unwrap message s).message)).1
  held : 2 ≤ (unwrap message s).session.settings.maxTracked →
    (incoming extractor message s).1.ledger.get? (.document target.uri) = some block.lineOffset
  moved : IsId (requestId (unwrap message s).message) →
    0 ≤ (unwrap message s).session.settings.maxTracked →
    (∀ e, ¬ s.Unmovable (-block.lineOffset)
      (redirect extractor target block (unwrap message s).message) e) →
    ∃ out, (incoming extractor message s).2 = .ok (some out) ∧
      Json.obj out = (Json.obj (redirect extractor target block
        (unwrap message s).message)).shiftLines (-block.lineOffset)
  refused : ¬ IsId (requestId (unwrap message s).message) ∨
    (unwrap message s).session.settings.maxTracked < 0 ∨
    (∃ e, s.Unmovable (-block.lineOffset)
      (redirect extractor target block (unwrap message s).message) e) →
    ∃ e, (incoming extractor message s).2 = .error e

/-- Nothing is recorded for a message. -/
def Unrecorded (extractor : Extractor) (message : Members) (s : Session)
    (result : Except Fault (Option Members)) : Prop :=
  (incoming extractor message s).2 = result ∧ (incoming extractor message s).1.ledger = s.ledger

/-- What becomes of a message about a component. Without a deciding block it stays as it is but for
the proxy's options. With one its offset is decided, unless the generated file cannot be written in
a way that the proxy does not expect. -/
def Decided (extractor : Extractor) (message : Members) (s : Session) (target : Target) : Prop :=
  match decidingBlock extractor s.files target with
  | .error e => Unrecorded extractor message s (.error e)
  | .ok none => Unrecorded extractor message s (.ok (unwrap message s).changed)
  | .ok (some block) =>
    match (materialize (unwrap message s).session.settings s.files target.path
        block.sourceText).2 with
    | .error e => Unrecorded extractor message s (.error e)
    | .ok _ => DecidedBy extractor message s target block

variable {message : Members} {s : Session}

theorem enter_redirect (target : Target) (block : ScriptBlock) (seen : List Text)
    (message : Members) (s : Session) :
    (enter (.redirect target block seen message) s).1.ledger
        = (s.ledger.record s.settings.maxTracked block.lineOffset (some target.uri) .editor
          (requestId message)).1 ∧
      (enter (.redirect target block seen message) s).1.settings = s.settings ∧
      ((s.ledger.record s.settings.maxTracked block.lineOffset (some target.uri) .editor
        (requestId message)).2 = none →
          (enter (.redirect target block seen message) s).2 = .ok ()) ∧
      ((s.ledger.record s.settings.maxTracked block.lineOffset (some target.uri) .editor
        (requestId message)).2 ≠ none →
          ∃ e, (enter (.redirect target block seen message) s).2 = .error e) := by
  rw [enter_eq]
  refine ⟨rfl, rfl, fun hnone => ?_, fun hsome => ?_⟩
  · rw [hnone]
  · obtain ⟨refusal, hrefusal⟩ := Option.ne_none_iff_exists'.mp hsome
    rw [hrefusal]
    exact ⟨_, rfl⟩

theorem conclude_redirect (seen : List Text) (message : Members)
    (hbound : 0 ≤ s.settings.maxTracked) :
    (conclude extractor (.redirect target block seen message) s).2
      = (s.moveLines (-block.lineOffset) (redirect extractor target block message)).map some := by
  have hregister : (s.uris.register s.settings target.generated target.uri).outcome = .ok () := by
    simp [UriMap.register, Lru.boundError?, Int.not_lt.mpr hbound]
  rw [(conclude_spec extractor target block seen message s).2, hregister]

/-- A plan that does not redirect records nothing. -/
theorem unrecorded_of_plan {changed : Option Members}
    (hplan : (prepare extractor message s).2 = .ok (.keep changed)) :
    Unrecorded extractor message s (.ok changed) := by
  rw [Unrecorded, incoming_eq, hplan]
  exact ⟨rfl, (prepare_spec extractor message s).1⟩

theorem unrecorded_of_error {e : Fault} (hplan : (prepare extractor message s).2 = .error e) :
    Unrecorded extractor message s (.error e) := by
  rw [Unrecorded, incoming_eq, hplan]
  exact ⟨rfl, (prepare_spec extractor message s).1⟩

theorem decidedBy_of_plan (hnonneg : 0 ≤ block.lineOffset) (huri : target.uri ≠ [])
    {seen : List Text} (hplan : (prepare extractor message s).2
      = .ok (.redirect target block seen (unwrap message s).message)) :
    DecidedBy extractor message s target block := by
  obtain ⟨hledger, hlimits, -⟩ := prepare_spec extractor message s
  have hsettings : (prepare extractor message s).1.settings
      = (unwrap message s).session.settings := by
    rw [prepare_eq]
    exact (planFor_kept _ _ _ _).2.1
  obtain ⟨hentered, hkept, hok, hrefused⟩ := enter_redirect target block seen
    (unwrap message s).message (prepare extractor message s).1
  rw [hledger, hsettings] at hentered hok hrefused
  rw [Ledger.record_succeeds_iff hnonneg] at hok
  rw [Ne, Ledger.record_succeeds_iff hnonneg] at hrefused
  have hrecorded : (incoming extractor message s).1.ledger
      = (s.ledger.record (unwrap message s).session.settings.maxTracked block.lineOffset
        (some target.uri) .editor (requestId (unwrap message s).message)).1 := by
    rw [incoming_eq, hplan]
    dsimp only
    split
    · exact hentered
    · rw [conclude_ledger]
      exact hentered
  have hmoves (hid : IsId (requestId (unwrap message s).message))
      (hbound : 0 ≤ (unwrap message s).session.settings.maxTracked) :
      (incoming extractor message s).2 = (s.moveLines (-block.lineOffset)
        (redirect extractor target block (unwrap message s).message)).map some := by
    rw [incoming_eq, hplan]
    dsimp only
    rw [hok ⟨hid, hbound⟩]
    dsimp only
    rw [conclude_redirect _ _ (by rw [hkept, hsettings]; exact hbound),
      moveLines_of_limits ((enter_limits _ _).trans hlimits)]
  have hfails (hfailure : ¬ (IsId (requestId (unwrap message s).message) ∧
      0 ≤ (unwrap message s).session.settings.maxTracked)) :
      ∃ e, (incoming extractor message s).2 = .error e := by
    obtain ⟨e, he⟩ := hrefused hfailure
    rw [incoming_eq, hplan]
    dsimp only
    rw [he]
    exact ⟨e, rfl⟩
  constructor
  case nonneg => exact hnonneg
  case recorded => exact hrecorded
  case held =>
    intro hbound
    rw [hrecorded]
    exact Ledger.get?_record_document hbound hnonneg huri _ _ _
  case moved =>
    intro hid hbound hmovable
    rw [hmoves hid hbound, moveLines_eq_ok_iff.mpr ⟨hmovable, rfl⟩]
    exact ⟨_, rfl, by rw [Json.shiftLines_obj]⟩
  case refused =>
    by_cases hsuccess : IsId (requestId (unwrap message s).message) ∧
      0 ≤ (unwrap message s).session.settings.maxTracked
    · rintro (hid | hbound | ⟨e, he⟩)
      · exact absurd hsuccess.1 hid
      · exact absurd hsuccess.2 (Int.not_le.mpr hbound)
      · rw [hmoves hsuccess.1 hsuccess.2]
        rcases moveLines_cases s (-block.lineOffset)
            (redirect extractor target block (unwrap message s).message) with
          ⟨e', -, hmoved⟩ | hmoved
        · exact ⟨e', by rw [hmoved]; rfl⟩
        · exact absurd he ((moveLines_eq_ok_iff.mp hmoved).1 e)
    · exact fun _ => hfails hsuccess

theorem uri_ne_nil_of_target? {settings : Settings}
    (htarget : target? settings message = .ok (some target)) : target.uri ≠ [] :=
  (UriMap.hasScheme_of_toGenerated? (toGenerated?_of_target? htarget)).1.ne_nil

/-- What becomes of a message about a component does not depend on what came before it. -/
theorem incoming_decided (lang : Text)
    (htarget : target? (unwrap message s).session.settings (unwrap message s).message
      = .ok (some target)) : Decided (.ofLang lang) message s target := by
  have hplan := planFor_of_target (.ofLang lang) (unwrap message s).changed htarget
  rw [← prepare_eq, (unwrap_kept message s).2] at hplan
  unfold Decided
  cases hblock : decidingBlock (.ofLang lang) s.files target with
  | error e =>
    rw [hblock] at hplan
    exact unrecorded_of_error hplan
  | ok block? =>
    rw [hblock] at hplan
    cases block? with
    | none => exact unrecorded_of_plan hplan
    | some block =>
      dsimp only at hplan ⊢
      split
      all_goals
        rename_i hwritten
        rw [hwritten] at hplan
      · exact unrecorded_of_error hplan
      · obtain ⟨seen, hplan⟩ := hplan
        obtain ⟨text, -, htext⟩ := exists_text_of_decidingBlock hblock
        exact decidedBy_of_plan (lineOffset_nonneg htext) (uri_ne_nil_of_target? htarget) hplan

/-! ## What the ledger holds -/

/-- The offset that a message decides for a component, if it is about that component and there is a
deciding block. -/
def decided? (extractor : Extractor) (uri : Text) (message : Members) (s : Session) : Option Int :=
  match target? (unwrap message s).session.settings (unwrap message s).message with
  | .ok (some target) =>
    match decidingBlock extractor s.files target with
    | .ok (some block) =>
      match (materialize (unwrap message s).session.settings s.files target.path
          block.sourceText).2 with
      | .ok _ => if target.uri = uri then some block.lineOffset else none
      | .error _ => none
    | _ => none
  | _ => none

/-- The offset that a turn decides for a component. -/
def Turn.decided? (extractor : Extractor) (uri : Text) (s : Session) : Turn → Option Int
  | .editor body =>
    match s.decode body with
    | .object message => Session.decided? extractor uri message s
    | _ => none
  | .server _ | .files _ => none

/-- The offset that was last decided for a component in a run. -/
def lastDecided (extractor : Extractor) (uri : Text) : List Turn → Session → Option Int
  | [], _ => none
  | t :: turns, s =>
    (lastDecided extractor uri turns (turn extractor s t)).or (t.decided? extractor uri s)

variable {lang uri : Text} {offset : Int}

/-- A component is recorded with the offset of the block, and other components stay as they are. -/
theorem DecidedBy.mem_ledger (h : DecidedBy extractor message s target block)
    (htarget : target.uri ≠ [])
    (hmem : (.document uri, offset) ∈ (incoming extractor message s).1.ledger) :
    target.uri = uri ∧ block.lineOffset = offset ∨
      target.uri ≠ uri ∧ (.document uri, offset) ∈ s.ledger := by
  have hkey := Ledger.documentKey?_of_ne_nil htarget
  rw [h.recorded] at hmem
  rcases Ledger.mem_record hmem with ⟨hmem, hother⟩ | ⟨-, hvalue, hsame | ⟨_, hrequest⟩⟩
  · refine .inr ⟨?_, hmem⟩
    rintro rfl
    exact hother h.nonneg hkey
  · rw [hkey] at hsame
    exact .inl ⟨LedgerKey.document.inj (Option.some.inj hsame), hvalue.symm⟩
  · cases hrequest

/-- What the ledger holds for a component after a message is what the message decides for it, or else
what it held before. -/
theorem mem_ledger_incoming
    (h : (.document uri, offset) ∈ (incoming (.ofLang lang) message s).1.ledger) :
    decided? (.ofLang lang) uri message s = some offset ∨
      decided? (.ofLang lang) uri message s = none ∧ (.document uri, offset) ∈ s.ledger := by
  have hkept : ∀ {result}, Unrecorded (.ofLang lang) message s result →
      (.document uri, offset) ∈ s.ledger := by
    intro result hunrecorded
    rwa [hunrecorded.2] at h
  unfold decided?
  cases htarget : target? (unwrap message s).session.settings (unwrap message s).message with
  | error e =>
    have hplan : (prepare (.ofLang lang) message s).2 = .error (.uri e) := by
      rw [prepare_eq, planFor, htarget]
    exact .inr ⟨rfl, hkept (unrecorded_of_error hplan)⟩
  | ok target? =>
    cases target? with
    | none =>
      have hplan : (prepare (.ofLang lang) message s).2
          = .ok (.keep (unwrap message s).changed) := by
        rw [prepare_eq, planFor, htarget]
      exact .inr ⟨rfl, hkept (unrecorded_of_plan hplan)⟩
    | some target =>
      have hdecided := incoming_decided lang htarget
      unfold Decided at hdecided
      dsimp only
      cases hblock : decidingBlock (.ofLang lang) s.files target with
      | error e =>
        rw [hblock] at hdecided
        exact .inr ⟨rfl, hkept hdecided⟩
      | ok block? =>
        rw [hblock] at hdecided
        cases block? with
        | none => exact .inr ⟨rfl, hkept hdecided⟩
        | some block =>
          dsimp only at hdecided ⊢
          split
          all_goals
            rename_i hwritten
            rw [hwritten] at hdecided
          · rcases hdecided.mem_ledger (uri_ne_nil_of_target? htarget) h with
              ⟨huri, hoffset⟩ | ⟨huri, hmem⟩
            · exact .inl (by rw [if_pos huri, hoffset])
            · exact .inr ⟨if_neg huri, hmem⟩
          · exact .inr ⟨rfl, hkept hdecided⟩

/-- So it is for every turn; the server and the files decide nothing. -/
theorem mem_ledger_turn {t : Turn}
    (h : (.document uri, offset) ∈ (turn (.ofLang lang) s t).ledger) :
    t.decided? (.ofLang lang) uri s = some offset ∨
      t.decided? (.ofLang lang) uri s = none ∧ (.document uri, offset) ∈ s.ledger := by
  cases t with
  | files tree => exact .inr ⟨rfl, h⟩
  | server body =>
    refine .inr ⟨rfl, ?_⟩
    rw [turn, fromServer, pass_ledger] at h
    split at h
    · exact mem_ledger_of_outgoing h
    · exact h
  | editor body =>
    rw [turn, fromEditor, pass_ledger] at h
    rw [Turn.decided?]
    cases hdecode : s.decode body with
    | object message =>
      rw [hdecode] at h
      exact mem_ledger_incoming h
    | other | undecodable _ | beyondLimits _ =>
      rw [hdecode] at h
      exact .inr ⟨rfl, h⟩

/-- What the ledger holds for a component after a run is what was last decided for it, or else what
it held before. -/
theorem mem_ledger_after {turns : List Turn} {known : Option Int}
    (hknown : ∀ offset, (.document uri, offset) ∈ s.ledger → known = some offset)
    (h : (.document uri, offset) ∈ (after (.ofLang lang) turns s).ledger) :
    (lastDecided (.ofLang lang) uri turns s).or known = some offset := by
  -- What was decided in the turns so far is what is known of the rest of the run.
  induction turns generalizing s known with
  | nil => exact hknown offset h
  | cons t turns ih =>
    rw [lastDecided, Option.or_assoc]
    refine ih (fun offset hmem => ?_) h
    rcases mem_ledger_turn hmem with hdecided | ⟨hnone, hmem⟩
    · rw [hdecided, Option.some_or]
    · rw [hnone, Option.none_or]
      exact hknown offset hmem

/-- **The offset follows the message, then the disk.** After every run from the start, the offset of
a message about a component is decided by the message and the disk alone, whatever texts of the
component have come before. And what the ledger has held for the component until then is the offset
that was last decided for it in the same way. -/
theorem offset_of_message_or_disk {turns : List Turn} {settings : Settings} {files : FileTree}
    {limits : Limits} (hs : s = after (.ofLang lang) turns (start settings files limits))
    (htarget : target? (unwrap message s).session.settings (unwrap message s).message
      = .ok (some target)) :
    Decided (.ofLang lang) message s target ∧
      ∀ offset, s.ledger.get? (.document target.uri) = some offset →
        lastDecided (.ofLang lang) target.uri turns (start settings files limits) = some offset := by
  refine ⟨incoming_decided lang htarget, fun offset hget => ?_⟩
  have hmem := Lru.mem_of_get? hget
  rw [hs] at hmem
  rw [← Option.or_none (o := lastDecided _ _ _ _)]
  exact mem_ledger_after nofun hmem

/-- The editor has sent a text whose block starts two lines down. A message without a text is decided
by the disk, where the block starts one line down. -/
theorem offset_of_message_or_disk_unsaved :
    ∃ (turns : List Turn) (files : FileTree) (message : Members) (s : Session),
      s = after (.ofLang "gleam") turns
        (start ⟨⟨.root, []⟩, "src", "gen", "gleam", "gleam", 8⟩ files) ∧ ∃ target,
      target? (unwrap message s).session.settings (unwrap message s).message = .ok (some target) ∧
      candidates target = [] ∧
      (decidingBlock (.ofLang "gleam") s.files target).toOption.join.map ScriptBlock.lineOffset
        = some 1 ∧
      Decided (.ofLang "gleam") message s target ∧
      lastDecided (.ofLang "gleam") target.uri turns
        (start ⟨⟨.root, []⟩, "src", "gen", "gleam", "gleam", 8⟩ files) = some 2 := by
  refine ⟨[.editor (Utf8.ofString ("\x7b\"method\":\"textDocument/didOpen\",\"params\":\x7b"
      ++ "\"textDocument\":\x7b\"uri\":\"file:///src/A.vue\","
      ++ "\"text\":\"\\n\\n<script lang=gleam>x</script>\"\x7d\x7d\x7d"))],
    (FileTree.empty []).plant ["src", "A.vue"]
      (.file (Utf8.ofString "\n<script lang=gleam>x</script>") false),
    [(Text.ofString "params", .obj [(Text.ofString "textDocument",
      .obj [(Text.ofString "uri", .str "file:///src/A.vue")])])], _, rfl, ?_⟩
  generalize hs : after _ _ _ = s
  generalize hmessage : [(Text.ofString "params", _)] = message
  have hcheck : (target? (unwrap message s).session.settings
      (unwrap message s).message).toOption.join.any (fun target =>
        candidates target = [] ∧
        (decidingBlock (.ofLang "gleam") s.files target).toOption.join.map ScriptBlock.lineOffset
          = some 1 ∧
        s.ledger.get? (.document target.uri) = some 2) = true := by
    subst hs hmessage
    simp only [Utf8.ofString_append, Utf8.ofString_ofList, Text.ofString_ofList]
    decide +kernel
  obtain ⟨target, htarget, hfacts⟩ := (Option.any_eq_true _ _).mp hcheck
  obtain ⟨hcandidates, hdisk, hheld⟩ := of_decide_eq_true hfacts
  have htarget := Traffic.toOption_eq_some (Option.join_eq_some_iff.mp htarget)
  obtain ⟨hdecided, hlast⟩ := offset_of_message_or_disk hs.symm htarget
  exact ⟨target, htarget, hcandidates, hdisk, hdecided, hlast 2 hheld⟩

/-- The editor has sent a text whose block starts two lines down, and the block on disk starts one
line down. A message without a text is moved by one line, and that is what it records. -/
theorem unsaved_text_not_followed :
    ∃ s, s = after (.ofLang "gleam")
        [.editor (Utf8.ofString ("\x7b\"method\":\"textDocument/didOpen\",\"params\":\x7b"
          ++ "\"textDocument\":\x7b\"uri\":\"file:///src/A.vue\","
          ++ "\"text\":\"\\n\\n<script lang=gleam>x</script>\"\x7d\x7d\x7d"))]
        (start ⟨⟨.root, []⟩, "src", "gen", "gleam", "gleam", 8⟩
          ((FileTree.empty []).plant ["src", "A.vue"]
            (.file (Utf8.ofString "\n<script lang=gleam>x</script>") false))) ∧
      (pieceOf? (.ofLang "gleam") "\n\n<script lang=gleam>x</script>").map ScriptBlock.lineOffset
        = some 2 ∧
      s.ledger.get? (.document "file:///src/A.vue") = some 2 ∧
      (fromEditor (.ofLang "gleam") (Utf8.ofString ("\x7b\"method\":\"textDocument/hover\","
          ++ "\"params\":\x7b\"textDocument\":\x7b\"uri\":\"file:///src/A.vue\"\x7d,"
          ++ "\"position\":\x7b\"line\":4\x7d\x7d\x7d")) s).map
          (·.ledger.get? (.document "file:///src/A.vue")) id
        = (some 1, .ok (Utf8.ofString ("\x7b\"method\":\"textDocument/hover\","
          ++ "\"params\":\x7b\"textDocument\":\x7b\"uri\":\"file:///src/gen/a.gleam\"\x7d,"
          ++ "\"position\":\x7b\"line\":3\x7d\x7d\x7d"))) := by
  refine ⟨_, rfl, ?_⟩
  simp only [Utf8.ofString_append, Utf8.ofString_ofList, Text.ofString_ofList]
  decide +kernel

end Session

end SfcProxy
