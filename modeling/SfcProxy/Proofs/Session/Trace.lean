import SfcProxy.Proofs.FileTree
import SfcProxy.Proofs.Session.Escape
import SfcProxy.Proofs.Session.Reference
import SfcProxy.Proofs.Session.Subject

/-!
# What a failed message leaves behind

A message of the editor is adapted in steps: options change the settings, the generated file is
written, the offset is recorded, the URI is remembered, and lines move. A step that fails ends the
adaptation, and what the steps before it did is not taken back. So a message that cannot be adapted
passes as it came, but what it leaves behind tells the step that failed.

## Main definitions

* `Materialized`: how writing a generated file can end
* `Prepared`: how finding out about a message can end
* `Stopped`: the steps that can fail, and what each of them finds and leaves
* `Traces`: what a message that cannot be adapted leaves behind

## Main results

* `materialize_spec`, `prepare_cases`: the two steps end in these ways alone
* `traces_of_error`: what a failed adaptation leaves behind
* `failed_message_traces`: the same for bodies, which pass unchanged
-/

namespace SfcProxy.Session

/-! ## The generated file -/

/-- A file cannot be written: the directories above it cannot be made, or the file itself cannot. -/
def WriteFails (files : FileTree) (generated : Path) (bytes : List UInt8) (e : FileError) : Prop :=
  (files.makeDirectories generated.parent).2 = some e ∨
    ∃ made, files.makeDirectories generated.parent = (made, none) ∧
      made.writeFile generated bytes = .error e

/-- How writing the generated file of a component can end: the file is stored, or the system refuses
that, which goes on record, or it fails in another way. -/
inductive Materialized (files : FileTree) (path generated : Path) (bytes : List UInt8) :
    FileTree → Except Fault Log → Prop
  | stored {made written : FileTree} (way : FileTree.MakesWay generated.parent files made)
      (stores : FileTree.Stores generated bytes made written) :
      Materialized files path generated bytes written (.ok [])
  | refused {made : FileTree} {e : FileError}
      (way : FileTree.MakesWay generated.parent files made)
      (fails : WriteFails files generated bytes e) (system : e.isSystem = true) :
      Materialized files path generated bytes made (.ok [unwritten path e])
  | failed {made : FileTree} {e : FileError}
      (way : FileTree.MakesWay generated.parent files made)
      (fails : WriteFails files generated bytes e) (system : e.isSystem = false) :
      Materialized files path generated bytes made (.error (.file e))

theorem materialized_of_writeFails {files made : FileTree} {generated : Path}
    {bytes : List UInt8} {e : FileError} (path : Path)
    (way : FileTree.MakesWay generated.parent files made)
    (fails : WriteFails files generated bytes e) :
    Materialized files path generated bytes made
      (if e.isSystem then .ok [unwritten path e] else .error (.file e)) := by
  split
  · rename_i hsystem
    exact .refused way fails hsystem
  · rename_i hsystem
    exact .failed way fails (Bool.not_eq_true _ ▸ hsystem)

theorem materialize_spec {settings : Settings} {path generated : Path}
    (h : GeneratedFile.ofComponent? settings path = some generated) (files : FileTree)
    (text : List Char) :
    Materialized files path generated (Utf8.encodeChars text)
      (materialize settings files path text).1 (materialize settings files path text).2 := by
  have hway := FileTree.makesWay_makeDirectories generated.parent files
  unfold materialize GeneratedFile.ensure
  rw [h]
  dsimp only
  rcases hmade : files.makeDirectories generated.parent with ⟨made, e?⟩
  rw [hmade] at hway
  cases e? with
  | some e => exact materialized_of_writeFails path hway (.inl (by rw [hmade]))
  | none =>
    dsimp only
    cases hwritten : made.writeFile generated (Utf8.encodeChars text) with
    | ok written => exact .stored hway (FileTree.stores_writeFile hwritten)
    | error e => exact materialized_of_writeFails path hway (.inr ⟨made, hmade, hwritten⟩)

/-! ## The steps before the ledger

Only the last of them touches the files. If it fails, what it has made so far stays. -/

/-- A message is about a component, whose generated file is at a path, and a block decides its
offset. -/
structure Redirects (extractor : Extractor) (message : Members) (s : Session) (target : Target)
    (block : ScriptBlock) (generated : Path) : Prop where
  isOf : target.IsOf (settingsBy message s.settings) (unwrap message s).message
  decides : decidingBlock extractor s.files target = .ok (some block)
  file : GeneratedFile.ofComponent? (settingsBy message s.settings) target.path
    = some generated

/-- A fault of the steps before the ledger: a URI, a file or a text that cannot be made out. -/
def Fault.IsEarly : Fault → Prop
  | .uri _ | .file _ | .encoding _ => True
  | .ledger _ | .bound _ | .nesting | .offset _ => False

/-- How finding out about a message can end: with the files as they were, or with the outcome of
writing a generated file. -/
inductive Prepared (extractor : Extractor) (message : Members) (s : Session) :
    FileTree → Except Fault Plan → Prop
  | kept : Prepared extractor message s s.files (.ok (.keep (unwrap message s).changed))
  | failed {e : Fault} (early : e.IsEarly) :
      Prepared extractor message s s.files (.error e)
  | unwritten {target : Target} {block : ScriptBlock} {generated : Path} {files : FileTree}
      {e : FileError} (redirects : Redirects extractor message s target block generated)
      (materialized : Materialized s.files target.path generated
        (Utf8.encodeChars block.sourceText) files (.error (.file e))) :
      Prepared extractor message s files (.error (.file e))
  | redirected {target : Target} {block : ScriptBlock} {generated : Path} {files : FileTree}
      {log : Log} (seen : List Text)
      (redirects : Redirects extractor message s target block generated)
      (materialized : Materialized s.files target.path generated
        (Utf8.encodeChars block.sourceText) files (.ok log)) :
      Prepared extractor message s files
        (.ok (.redirect target block seen (unwrap message s).message))

variable {extractor : Extractor} {message : Members} {s : Session} {e : Fault}

/-- Looking for the block fails over files and texts alone. -/
theorem decidingBlock_error {files : FileTree} {target : Target}
    (h : decidingBlock extractor files target = .error e) : e.IsEarly := by
  unfold decidingBlock at h
  split at h
  · cases h
  · unfold diskText at h
    split at h
    · split at h
      · cases h
      · cases h
        trivial
    · split at h
      · cases h
      · cases h
        trivial

/-- A message about a component with a block is redirected, and the text of the block is written as
far as it can be. -/
theorem exists_redirects {target : Target} {block : ScriptBlock} {seen : List Text} {log : Log}
    (htarget : target? (unwrap message s).session.settings (unwrap message s).message
      = .ok (some target))
    (hfound : reference extractor (unwrap message s).session.files target
      = .ok ⟨some block, seen, log⟩) :
    ∃ generated, Redirects extractor message s target block generated ∧
      Materialized s.files target.path generated (Utf8.encodeChars block.sourceText)
        (materialize (unwrap message s).session.settings (unwrap message s).session.files
          target.path block.sourceText).1
        (materialize (unwrap message s).session.settings (unwrap message s).session.files
          target.path block.sourceText).2 := by
  rw [unwrap_settings] at htarget ⊢
  rw [(unwrap_kept message s).2] at hfound ⊢
  obtain ⟨generated, hgenerated, -⟩ := (Target.isOf htarget).exists_generated
  have hblock : decidingBlock extractor s.files target = .ok (some block) := by
    rw [decidingBlock_eq, hfound]
  exact ⟨generated, ⟨Target.isOf htarget, hblock, hgenerated⟩,
    materialize_spec hgenerated s.files block.sourceText⟩

theorem prepare_cases (extractor : Extractor) (message : Members) (s : Session) :
    Prepared extractor message s (prepare extractor message s).1.files
      (prepare extractor message s).2 := by
  have hfiles := (unwrap_kept message s).2
  rw [prepare_eq]
  have hplanning := planning_planFor extractor (unwrap message s).message
    (unwrap message s).changed (unwrap message s).session
  generalize planFor extractor (unwrap message s).message (unwrap message s).changed
    (unwrap message s).session = result at hplanning ⊢
  cases hplanning with
  | misnamed =>
    rw [hfiles]
    exact .failed trivial
  | foreign =>
    rw [hfiles]
    exact .kept
  | @unread target _ e _ found_eq =>
    have hblock : decidingBlock extractor (unwrap message s).session.files target = .error e := by
      rw [decidingBlock_eq, found_eq]
    dsimp only [logged]
    rw [hfiles]
    exact .failed (decidingBlock_error hblock)
  | blockless =>
    dsimp only [logged]
    rw [hfiles]
    exact .kept
  | unwritten target_eq found_eq written_eq =>
    obtain ⟨generated, hredirects, hmaterialized⟩ := exists_redirects target_eq found_eq
    rw [written_eq] at hmaterialized
    cases hmaterialized with
    | failed way fails system => exact .unwritten hredirects (.failed way fails system)
  | redirected target_eq found_eq written_eq =>
    obtain ⟨generated, hredirects, hmaterialized⟩ := exists_redirects target_eq found_eq
    rw [written_eq] at hmaterialized
    exact .redirected _ hredirects hmaterialized

/-- Before the ledger comes in, the settings are those that the options lead to, and ledger and URIs
are as they were. -/
theorem prepare_kept (extractor : Extractor) (message : Members) (s : Session) :
    (prepare extractor message s).1.settings = settingsBy message s.settings ∧
      (prepare extractor message s).1.ledger = s.ledger ∧
      (prepare extractor message s).1.uris = s.uris := by
  refine ⟨?_, (prepare_spec extractor message s).1, ?_⟩
  · rw [prepare_eq, (planFor_kept _ _ _ _).2.1, unwrap_settings]
  · rw [prepare_eq, (planFor_kept _ _ _ _).1, (unwrap_kept message s).1]

/-! ## Traces -/

/-- The steps in which the adaptation of a message can fail, and the offsets, URIs and files that are
left then. Nothing is taken back: a step finds what the steps before it did, and leaves it. -/
inductive Stopped (extractor : Extractor) (message : Members) (s : Session) :
    Ledger → UriMap → FileTree → Fault → Prop
  /-- The message cannot be made out. -/
  | early {e : Fault} (early : e.IsEarly) :
      Stopped extractor message s s.ledger s.uris s.files e
  /-- The generated file cannot be written; directories on the way to it stay. -/
  | unwritten {target : Target} {block : ScriptBlock} {generated : Path} {made : FileTree}
      {e : FileError} (redirects : Redirects extractor message s target block generated)
      (way : FileTree.MakesWay generated.parent s.files made) :
      Stopped extractor message s s.ledger s.uris made (.file e)
  /-- The offset is refused; the generated file stays. -/
  | unrecorded {target : Target} {block : ScriptBlock} {generated : Path} {files : FileTree}
      {log : Log} {ledger : Ledger} {e : Ledger.Error}
      (redirects : Redirects extractor message s target block generated)
      (materialized : Materialized s.files target.path generated
        (Utf8.encodeChars block.sourceText) files (.ok log))
      (refusing : Ledger.Refusing s.settings.maxTracked block.lineOffset (some target.uri)
        (requestId message) s.ledger ledger e) :
      Stopped extractor message s ledger s.uris files (.ledger e)
  /-- Lines cannot be moved; the generated file, the offset and the URI stay. -/
  | unmoved {target : Target} {block : ScriptBlock} {generated : Path} {files : FileTree}
      {log : Log} {ledger : Ledger} {e : Fault}
      (redirects : Redirects extractor message s target block generated)
      (materialized : Materialized s.files target.path generated
        (Utf8.encodeChars block.sourceText) files (.ok log))
      (recorded : s.ledger.record s.settings.maxTracked block.lineOffset (some target.uri) .editor
        (requestId message) = (ledger, none))
      (unmovable : s.Unmovable (-block.lineOffset)
        (redirect extractor target block (unwrap message s).message) e) :
      Stopped extractor message s ledger
        (s.uris.register (settingsBy message s.settings) target.generated target.uri).map files e

/-- What a message that cannot be adapted leaves behind: the settings that its own options lead to,
and what the steps before the failure did. -/
structure Traces (extractor : Extractor) (message : Members) (e : Fault) (s s' : Session) :
    Prop where
  settings : s'.settings = settingsBy message s.settings
  stopped : Stopped extractor message s s'.ledger s'.uris s'.files e

/-- A message whose offset is recorded fails only if its lines cannot be moved, and the URI of its
document is remembered then. -/
theorem unmovable_of_conclude {target : Target} {block : ScriptBlock} {seen : List Text}
    (hbound : 0 ≤ s.settings.maxTracked)
    (h : (conclude extractor (.redirect target block seen message) s).2 = .error e) :
    s.Unmovable (-block.lineOffset) (redirect extractor target block message) e := by
  rw [conclude_redirect seen message hbound] at h
  rcases moveLines_cases s (-block.lineOffset) (redirect extractor target block message) with
    ⟨e', hunmovable, herror⟩ | hok
  · rw [herror] at h
    obtain rfl : e' = e := Except.error.inj h
    exact hunmovable
  · rw [hok] at h
    cases h

/-- What a failed adaptation leaves behind. -/
theorem traces_of_error (h : (incoming extractor message s).2 = .error e) :
    Traces extractor message e s (incoming extractor message s).1 := by
  obtain ⟨hsettings, hledger, huris⟩ := prepare_kept extractor message s
  have hlimits := (prepare_spec extractor message s).2.1
  have hprepared := prepare_cases extractor message s
  rw [incoming_eq] at h ⊢
  generalize prepare extractor message s = prepared at hsettings hledger huris hlimits hprepared h ⊢
  obtain ⟨⟨settings, ledger, uris, files, log, limits⟩, outcome⟩ := prepared
  dsimp only at hsettings hledger huris hlimits hprepared h ⊢
  subst hsettings hledger huris hlimits
  cases hprepared with
  | kept => cases h
  | failed early =>
    cases h
    exact ⟨rfl, .early early⟩
  | unwritten redirects materialized =>
    cases h
    cases materialized with
    | failed way => exact ⟨rfl, .unwritten redirects way⟩
  | @redirected target block generated _ _ seen redirects materialized =>
    dsimp only at h ⊢
    rw [enter_eq] at h ⊢
    dsimp only at h ⊢
    rw [settingsBy_maxTracked, requestId_unwrap] at h ⊢
    rcases hrecord : s.ledger.record s.settings.maxTracked block.lineOffset (some target.uri)
      .editor (requestId message) with ⟨ledger, refusal | _⟩
    · rw [hrecord] at h
      have hbound := (Ledger.nonneg_of_record (congrArg Prod.snd hrecord)).2.2
      have hunmovable := unmovable_of_conclude
        ((settingsBy_maxTracked message s.settings).symm ▸ hbound) h
      obtain ⟨⟨_, hconcluded⟩, -⟩ := conclude_spec extractor target block seen
        (unwrap message s).message ⟨settingsBy message s.settings, ledger, s.uris, files, log, s.limits⟩
      dsimp only
      rw [hconcluded]
      exact ⟨rfl, .unmoved redirects materialized hrecord (hunmovable.of_limits rfl)⟩
    · rw [hrecord] at h
      cases h
      exact ⟨rfl, .unrecorded redirects materialized (Ledger.refusing_record hrecord)⟩

theorem logged_settings (s : Session) (log : Log) : (s.logged log).settings = s.settings := rfl

theorem logged_files (s : Session) (log : Log) : (s.logged log).files = s.files := rfl

theorem fromEditor_of_error {body : List UInt8} (hbody : s.decode body = .object message)
    (hfailed : (incoming extractor message s).2 = .error e) :
    fromEditor extractor body s
      = ((incoming extractor message s).1.logged [incomingFailure message], .ok body) := by
  refine Prod.ext ?_ ?_
  · rw [fromEditor, pass_session hbody, hfailed]
  · rw [fromEditor, pass_object hbody, hfailed]

/-- **A failed message passes as it came.** It goes on record, and of what the steps before the
failure did, nothing is taken back. -/
theorem failed_message_traces {body : List UInt8} (hbody : s.decode body = .object message)
    (hfailed : (incoming extractor message s).2 = .error e) :
    (fromEditor extractor body s).2 = .ok body ∧
      (fromEditor extractor body s).1.log
        = (incoming extractor message s).1.log ++ [incomingFailure message] ∧
      Traces extractor message e s (fromEditor extractor body s).1 := by
  have htraces := traces_of_error hfailed
  rw [fromEditor_of_error hbody hfailed]
  exact ⟨rfl, rfl, htraces.settings, htraces.stopped⟩

/-- A message that nests too deep for its lines to move has left file, offset and URI behind. -/
theorem failed_message_traces_nested :
    ∃ body s message, body = Utf8.ofString ("\x7b\"params\":\x7b\"deep\":[[]],"
        ++ "\"textDocument\":\x7b\"uri\":\"file:///src/A.vue\","
        ++ "\"text\":\"\\n<script lang=gleam>x</script>\"\x7d\x7d\x7d") ∧
      s = start ⟨⟨.root, []⟩, "src", "gen", "gleam", "gleam", 8⟩ (FileTree.empty []) ⟨4, 3, 6⟩ ∧
      s.decode body = .object message ∧
      (incoming (.ofLang "gleam") message s).2 = .error .nesting ∧
      (fromEditor (.ofLang "gleam") body s).1.files.readFile ⟨.root, ["src", "gen", "a.gleam"]⟩
        = .ok (Utf8.ofString "x") ∧
      (fromEditor (.ofLang "gleam") body s).1.ledger = [(.document "file:///src/A.vue", 1)] ∧
      (fromEditor (.ofLang "gleam") body s).1.uris
        = [(("file:///src/gen/a.gleam" : Text), ("file:///src/A.vue" : Text))] ∧
      (fromEditor (.ofLang "gleam") body s).2 = .ok body ∧
      Traces (.ofLang "gleam") message .nesting s (fromEditor (.ofLang "gleam") body s).1 := by
  refine ⟨_, _, [(Text.ofString "params", .obj [(Text.ofString "deep", .arr [.arr []]),
    (Text.ofString "textDocument", .obj [(Text.ofString "uri", .str "file:///src/A.vue"),
      (Text.ofString "text", .str "\n<script lang=gleam>x</script>")])])], rfl, rfl, ?_⟩
  generalize hbody : Utf8.ofString _ = body
  generalize hs : start _ _ _ = s
  generalize hmessage : [(Text.ofString "params", _)] = message
  have hdecode : s.decode body = .object message := by
    subst hbody hs hmessage
    simp only [Utf8.ofString_append, Utf8.ofString_ofList, Text.ofString_ofList]
    decide +kernel
  have hfailed : (incoming (.ofLang "gleam") message s).2 = .error .nesting ∧
      (incoming (.ofLang "gleam") message s).1.files.readFile ⟨.root, ["src", "gen", "a.gleam"]⟩
        = .ok (Utf8.ofString "x") ∧
      (incoming (.ofLang "gleam") message s).1.ledger = [(.document "file:///src/A.vue", 1)] ∧
      (incoming (.ofLang "gleam") message s).1.uris
        = [(("file:///src/gen/a.gleam" : Text), ("file:///src/A.vue" : Text))] := by
    subst hs hmessage
    simp only [Utf8.ofString_ofList, Text.ofString_ofList]
    decide +kernel
  obtain ⟨hnesting, hfile, hledger, huris⟩ := hfailed
  obtain ⟨hpassed, -, htraces⟩ := failed_message_traces hdecode hnesting
  rw [fromEditor_of_error hdecode hnesting] at hpassed htraces ⊢
  exact ⟨hdecode, hnesting, hfile, hledger, huris, hpassed, htraces⟩

/-- A component whose name holds a null character cannot be written. The options of the message and
the directories above the generated file are left behind. -/
theorem failed_message_not_traceless :
    ∃ body s message e, body = Utf8.ofString ("\x7b\"method\":\"initialize\",\"params\":\x7b"
        ++ "\"initializationOptions\":\x7b\"vleam\":\x7b\"sourceDir\":\"lib\"\x7d\x7d,"
        ++ "\"textDocument\":\x7b\"uri\":\"file:///lib/%00.vue\","
        ++ "\"text\":\"<script lang=gleam>x</script>\"\x7d\x7d\x7d") ∧
      s = start ⟨⟨.root, []⟩, "src", "gen", "gleam", "gleam", 8⟩ (FileTree.empty []) ∧
      s.decode body = .object message ∧
      (incoming (.ofLang "gleam") message s).2 = .error e ∧
      ∃ s', fromEditor (.ofLang "gleam") body s = (s', .ok body) ∧
      s.settings.sourceDir = "src" ∧ s'.settings.sourceDir = "lib" ∧
      s.files.hasDirectory ⟨.root, ["lib", "gen"]⟩ = false ∧
      s'.files.hasDirectory ⟨.root, ["lib", "gen"]⟩ = true := by
  refine ⟨_, _, [(Text.ofString "method", .str "initialize"),
    (Text.ofString "params", .obj [
      (Text.ofString "initializationOptions", .obj [(Text.ofString "vleam",
        .obj [(Text.ofString "sourceDir", .str "lib")])]),
      (Text.ofString "textDocument", .obj [(Text.ofString "uri", .str "file:///lib/%00.vue"),
        (Text.ofString "text", .str "<script lang=gleam>x</script>")])])],
    .file .nullCharacter, rfl, rfl, ?_⟩
  generalize hbody : Utf8.ofString _ = body
  generalize hs : start _ _ = s
  generalize hmessage : [(Text.ofString "method", _), _] = message
  have hdecode : s.decode body = .object message := by
    subst hbody hs hmessage
    simp only [Utf8.ofString_append, Utf8.ofString_ofList, Text.ofString_ofList]
    decide +kernel
  have hfailed : (incoming (.ofLang "gleam") message s).2 = .error (.file .nullCharacter) ∧
      s.settings.sourceDir = "src" ∧
      (incoming (.ofLang "gleam") message s).1.settings.sourceDir = "lib" ∧
      s.files.hasDirectory ⟨.root, ["lib", "gen"]⟩ = false ∧
      (incoming (.ofLang "gleam") message s).1.files.hasDirectory ⟨.root, ["lib", "gen"]⟩
        = true := by
    subst hs hmessage
    simp only [Text.ofString_ofList]
    decide +kernel
  refine ⟨hdecode, hfailed.1, _, fromEditor_of_error hdecode hfailed.1, ?_⟩
  rw [logged_settings, logged_files]
  exact hfailed.2

end SfcProxy.Session
