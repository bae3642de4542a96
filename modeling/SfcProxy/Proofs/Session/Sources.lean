import SfcProxy.Proofs.GeneratedFile
import SfcProxy.Proofs.LowerCase
import SfcProxy.Proofs.Session.Trace
import SfcProxy.Proofs.Utf8

/-!
# A component in a message and on disk

A new session learns of a component from the text in a message, or from the file on disk. Either way
an offset is recorded if the text has a block, unless the directory of the generated file cannot be
given to the system, and that depends on the settings and the component alone. But the two texts are
not read alike: a file is read with line breaks of all kinds as line feeds, and the text in a
message as it is, where line feeds alone count as lines.

## Main definitions

* `GeneratedFile.Reachable`: the directory of a generated file can be given to the system
* `Session.Learns`: what a new session records from the two sources

## Main results

* `speakable_lower`: names in lower case can be given to the system if the names can
* `Session.materialize_succeeds_iff`: when a generated file can be asked for
* `Session.sources_agree_iff`: when the two sources agree
-/

namespace SfcProxy

/-! ## Names in lower case -/

theorem speakable_singleton {c : Char} (h : c ≠ '\x00') : Speakable [.scalar c] := by
  intro u hu
  obtain rfl := List.mem_singleton.mp hu
  exact ⟨rfl, fun hnull => h (TextUnit.scalar.inj hnull)⟩

/-- A unit in lower case can be given to the system if the unit can. -/
theorem speakable_lowerBetween {before rest : Text} {u : TextUnit} (h : Speakable [u]) :
    Speakable (Text.lowerBetween before u rest) := by
  unfold Text.lowerBetween TextUnit.lower
  split
  · exact speakable_singleton (by decide)
  split
  · exact (speakable_singleton (c := 'i') (by decide)).append (speakable_singleton (by decide))
  · rcases lowerCodePoint_cases u.codePoint with hsame | ⟨hpositive, hvalid⟩
    · rwa [hsame, ofCodePoint_codePoint]
    · rw [ofCodePoint_of_isValidChar hvalid]
      refine speakable_singleton fun hnull => ?_
      have hzero : (Char.ofNat (lowerCodePoint u.codePoint)).toNat = 0 := by
        rw [hnull]
        rfl
      rw [Char.ofNat, dif_pos hvalid] at hzero
      exact hpositive.ne' hzero

theorem speakable_lower {t : Text} (h : Speakable t) : Speakable t.lower := by
  suffices hafter : ∀ before, Speakable (Text.lowerAfter before t) from hafter []
  induction t with
  | nil =>
    intro before u hu
    cases hu
  | cons u t ih =>
    intro before
    rw [Text.lowerAfter_cons]
    have hu : Speakable [u] := fun v hv => h v (List.mem_singleton.mp hv ▸ List.mem_cons_self)
    exact (speakable_lowerBetween hu).append
      (ih (fun v hv => h v (List.mem_cons_of_mem u hv)) (u :: before))

/-! ## Asking for a file -/

theorem speakable_of_checkPath {t : Text} (h : checkPath t = .ok ()) : Speakable t := by
  unfold checkPath at h
  split at h
  · cases h
  rename_i hstray
  split at h
  · cases h
  rename_i hnull
  rw [List.any_eq_true, not_exists] at hstray
  intro u hu
  constructor
  · have hnot := hstray u
    rw [Bool.eq_false_iff]
    exact fun htrue => hnot ⟨hu, htrue⟩
  · rintro rfl
    exact hnull (List.contains_iff_mem.mpr hu)

/-- A path whose text can be given to the system has names that can. -/
theorem Path.speakable_of_text {p : Path} (h : SfcProxy.Speakable p.text) : p.Speakable := by
  have hparts : SfcProxy.Speakable (Text.join "/" p.parts) := by
    unfold Path.text at h
    split at h
    · rename_i hparts
      rw [hparts]
      nofun
    · exact fun u hu => h u (List.mem_append_right _ hu)
  intro part hpart u hu
  by_cases hslash : u ∈ Text.ofString "/"
  · have hspeak : SfcProxy.Speakable "/" := speakable_singleton (by decide)
    exact hspeak u hslash
  · exact hparts u ((Text.mem_join hslash p.parts).mpr ⟨part, hpart, hu⟩)

theorem Path.Speakable.parent {p : Path} (h : p.Speakable) : p.parent.Speakable :=
  fun part hpart => h part (List.dropLast_subset _ hpart)

namespace FileTree

variable {tree : FileTree} {path : Path}

/-- What cannot be given to the system is refused before the system sees it. -/
theorem not_isSystem_of_checkPath {t : Text} {e : FileError} (h : checkPath t = .error e) :
    e.isSystem = false := by
  unfold checkPath at h
  split at h
  · cases h
    rfl
  · split at h
    · cases h
      rfl
    · cases h

theorem isSystem_of_ensureDirectory (hpath : path.Speakable) {e : FileError}
    (h : (tree.ensureDirectory path).2 = some e) : e.isSystem = true := by
  unfold ensureDirectory at h
  split at h
  · cases h
  · rename_i refusal hrefusal
    dsimp only at h
    split at h
    · cases h
    · obtain rfl := Option.some.inj h
      exact isSystem_of_guard (checkPath_of_speakable hpath.text) hrefusal

theorem isSystem_of_makeDirectories (hpath : path.Speakable) {e : FileError}
    (h : (tree.makeDirectories path).2 = some e) : e.isSystem = true := by
  have hmaking := making_makeDirectories tree path
  generalize tree.makeDirectories path = result at h hmaking
  induction hmaking with
  | alone path => exact isSystem_of_ensureDirectory hpath h
  | failed _ ih => exact ih hpath.parent h
  | behind _ ih => exact isSystem_of_ensureDirectory hpath h

/-- A directory that cannot be given to the system is not made, and nothing above it. -/
theorem makeDirectories_of_checkPath {e : FileError} (h : checkPath path.text = .error e)
    (tree : FileTree) : tree.makeDirectories path = (tree, some e) := by
  have hrefused : tree.makeDirectory path = .error e := by
    unfold makeDirectory guard
    rw [h]
  have hsystem := not_isSystem_of_checkPath h
  have hensured : tree.ensureDirectory path = (tree, some e) := by
    unfold ensureDirectory
    rw [hrefused]
    dsimp only
    rw [hsystem, Bool.false_and, if_neg Bool.false_ne_true]
  unfold makeDirectories
  cases path.parts.length with
  | zero => exact hensured
  | succ depth =>
    unfold makeDirectoriesFrom
    rw [hrefused]
    cases e with
    | system cause at_ => cases hsystem
    | nullCharacter | surrogates _ => exact hensured

end FileTree

namespace GeneratedFile

/-- The directory of the generated file of a component can be given to the system. -/
def Reachable (settings : Settings) (path : Path) : Prop :=
  ∀ generated, ofComponent? settings path = some generated → generated.parent.Speakable

theorem speakable_nameOf {name : Text} (h : Speakable name) : Speakable (nameOf name) := by
  have hsuffix : Speakable generatedSuffix := by
    rw [Speakable]
    decide
  refine speakable_lower (Speakable.append ?_ hsuffix)
  split
  · exact fun u hu => h u (List.mem_of_mem_take hu)
  · exact h

/-- The name of the generated file can be given to the system if that of the component can. -/
theorem speakable_of_parent {settings : Settings} {path generated : Path} (hpath : path.Speakable)
    (hgenerated : ofComponent? settings path = some generated)
    (hparent : generated.parent.Speakable) : generated.Speakable := by
  have hname : Speakable path.name := by
    rcases List.eq_nil_or_concat path.parts with hnil | ⟨above, last, hparts⟩
    · rw [Path.name, hnil]
      exact List.forall_mem_nil _
    · rw [Path.name, hparts, List.concat_eq_append, List.getLastD_concat]
      exact hpath last (by rw [hparts]; simp)
  obtain ⟨above, -, -, rfl⟩ := ofComponent?_eq_some hgenerated
  intro part hpart
  rcases List.mem_append.mp hpart with hpart | hpart
  · exact hparent part (by rwa [Path.parent, List.dropLast_concat])
  · rw [List.mem_singleton.mp hpart]
    exact speakable_nameOf hname

end GeneratedFile

namespace Session

open GeneratedFile (Reachable)

/-- The generated file of a component can be asked for, whatever comes of it, exactly if its
directory can be given to the system. -/
theorem materialize_succeeds_iff {settings : Settings} {path : Path} (hpath : path.Speakable)
    (files : FileTree) (text : List Char) :
    (∃ log, (materialize settings files path text).2 = .ok log) ↔ Reachable settings path := by
  cases hgenerated : GeneratedFile.ofComponent? settings path with
  | none =>
    refine iff_of_true ⟨[], ?_⟩ fun generated hsome => ?_
    · unfold materialize GeneratedFile.ensure
      rw [hgenerated]
    · rw [hgenerated] at hsome
      cases hsome
  | some generated =>
    have hreachable : Reachable settings path ↔ generated.parent.Speakable := by
      constructor
      · exact fun h => h generated hgenerated
      · intro h other hother
        rw [hgenerated] at hother
        exact Option.some.inj hother ▸ h
    rw [hreachable]
    constructor
    · rintro ⟨log, hlog⟩
      refine Path.speakable_of_text (speakable_of_checkPath ?_)
      cases hcheck : checkPath generated.parent.text with
      | ok => rfl
      | error e =>
        unfold materialize GeneratedFile.ensure at hlog
        rw [hgenerated] at hlog
        dsimp only at hlog
        rw [FileTree.makeDirectories_of_checkPath hcheck] at hlog
        dsimp only at hlog
        rw [FileTree.not_isSystem_of_checkPath hcheck] at hlog
        cases hlog
    · intro hparent
      have hspec := materialize_spec hgenerated files text
      generalize (materialize settings files path text).1 = written at hspec
      generalize (materialize settings files path text).2 = result at hspec
      cases hspec with
      | stored | refused => exact ⟨_, rfl⟩
      | failed way fails system =>
        rename_i e
        have hsystem : e.isSystem = true := by
          rcases fails with hmade | ⟨made, -, hwritten⟩
          · exact FileTree.isSystem_of_makeDirectories hparent hmade
          · have hfile := GeneratedFile.speakable_of_parent hpath hgenerated hparent
            exact FileTree.isSystem_of_guard (checkPath_of_speakable hfile.text) hwritten
        rw [hsystem] at system
        cases system

/-! ## What a new session learns -/

variable {lang text : Text} {message : Members} {s : Session} {target : Target}

/-- The offset of the block of a component, if there is one. -/
def offsetOf? (lang : Text) (cs : List Char) : Option Int :=
  (pieceOf? (.ofLang lang) (Text.ofChars cs)).map ScriptBlock.lineOffset

/-- What a new session records of a component, by a message about it: the offset that the message
decides is recorded, and held from then on if the bound leaves room for a document and a request. -/
structure Learns (lang : Text) (message : Members) (s : Session) (uri : Text)
    (offset? : Option Int) : Prop where
  decided : decided? (.ofLang lang) uri message s = offset?
  held : ∀ offset, (incoming (.ofLang lang) message s).1.ledger.get? (.document uri) = some offset →
    offset? = some offset
  kept : 2 ≤ s.settings.maxTracked →
    (incoming (.ofLang lang) message s).1.ledger.get? (.document uri) = offset?

theorem decidingBlock_inline (hcandidates : candidates target = [text])
    (hpath : target.path.Speakable) {e : FileError}
    (habsent : s.files.readFile target.path = .error e) :
    decidingBlock (.ofLang lang) s.files target = .ok (pieceOf? (.ofLang lang) text) := by
  unfold decidingBlock
  rw [hcandidates, List.findSome?_cons]
  cases pieceOf? (.ofLang lang) text with
  | some block => rfl
  | none =>
    rw [List.findSome?_nil, diskText, habsent]
    dsimp only
    rw [FileTree.isSystem_of_guard (checkPath_of_speakable hpath.text) habsent, if_pos rfl]
    rfl

theorem decidingBlock_onDisk (hcandidates : candidates target = []) {cs : List Char}
    (hstored : s.files.readFile target.path = .ok (Utf8.encodeChars cs)) :
    decidingBlock (.ofLang lang) s.files target
      = .ok (pieceOf? (.ofLang lang) (Text.ofChars (unifyBreaks cs))) := by
  rw [decidingBlock, hcandidates, List.findSome?_nil]
  dsimp only
  rw [diskText, hstored]
  dsimp only
  rw [Utf8.decode_encodeChars]
  rfl

/-- A new session records the offset of the deciding block, if the generated file can be asked
for. -/
theorem learns_of_decidingBlock {settings : Settings} {files : FileTree} {limits : Limits}
    {block? : Option ScriptBlock} {offset? : Option Int} (hs : s = start settings files limits)
    (htarget : target? (settingsBy message s.settings) (unwrap message s).message
      = .ok (some target)) (hpath : target.path.Speakable)
    (hblock : decidingBlock (.ofLang lang) s.files target = .ok block?)
    (hreachable : Reachable (settingsBy message s.settings) target.path →
      offset? = block?.map ScriptBlock.lineOffset)
    (hunreachable : ¬ Reachable (settingsBy message s.settings) target.path → offset? = none) :
    Learns lang message s target.uri offset? := by
  have hsettings := unwrap_settings message s
  rw [← hsettings] at htarget hreachable hunreachable
  have hdecided := incoming_decided lang htarget
  unfold Decided at hdecided
  rw [hblock] at hdecided
  have hdecides : decided? (.ofLang lang) target.uri message s = offset? ∧
      (2 ≤ s.settings.maxTracked →
        (incoming (.ofLang lang) message s).1.ledger.get? (.document target.uri) = offset?) := by
    unfold decided?
    rw [htarget]
    dsimp only
    rw [hblock]
    cases block? with
    | none =>
      have hnone : offset? = none := by
        by_cases h : Reachable (unwrap message s).session.settings target.path
        · exact hreachable h
        · exact hunreachable h
      refine ⟨hnone.symm, fun _ => ?_⟩
      rw [hdecided.2, hs, hnone]
      rfl
    | some block =>
      dsimp only at hdecided ⊢
      have hsucceeds : (∃ log, (materialize (unwrap message s).session.settings s.files target.path
            block.sourceText).2 = .ok log)
          ↔ Reachable (unwrap message s).session.settings target.path :=
        materialize_succeeds_iff hpath s.files block.sourceText
      split
      · rename_i log hlog
        rw [hlog] at hdecided
        rw [hreachable (hsucceeds.mp ⟨log, hlog⟩), Option.map_some]
        refine ⟨if_pos rfl, fun hbound => hdecided.held ?_⟩
        rwa [hsettings, settingsBy_maxTracked]
      · rename_i e he
        rw [he] at hdecided
        have hnone := hunreachable fun h => by
          obtain ⟨log, hlog⟩ := hsucceeds.mpr h
          rw [he] at hlog
          cases hlog
        refine ⟨hnone.symm, fun _ => ?_⟩
        rw [hdecided.2, hs, hnone]
        rfl
  refine ⟨hdecides.1, fun offset hget => ?_, hdecides.2⟩
  rcases mem_ledger_incoming (Lru.mem_of_get? hget) with hsome | ⟨-, hmem⟩
  · rw [← hdecides.1, hsome]
  · rw [hs] at hmem
    cases hmem

/-! ## Two sources -/

/-- Without carriage returns there is nothing to unify. -/
theorem unifyBreaks_of_notMem {cs : List Char} (h : '\r' ∉ cs) : unifyBreaks cs = cs := by
  induction cs with
  | nil => rfl
  | cons c cs ih =>
    have hc : c ≠ '\r' := fun hc => h (hc ▸ List.mem_cons_self)
    have hcs := ih fun hmem => h (List.mem_cons_of_mem c hmem)
    unfold unifyBreaks
    split
    · rename_i heq
      exact absurd (List.cons.inj heq).1 hc
    · rename_i heq
      exact absurd (List.cons.inj heq).1 hc
    · rename_i heq
      obtain ⟨rfl, rfl⟩ := List.cons.inj heq
      rw [hcs]
    · rename_i heq
      cases heq

/-- What two new sessions record of the same text of a component, the one from a message, the other
from the disk. -/
structure Sources (lang : Text) (cs : List Char) (settings : Settings) (path : Path)
    (inline? onDisk? : Option Int) : Prop where
  reachable : Reachable settings path →
    inline? = offsetOf? lang cs ∧ onDisk? = offsetOf? lang (unifyBreaks cs)
  unreachable : ¬ Reachable settings path → inline? = none ∧ onDisk? = none
  agree_iff : inline? = onDisk? ↔
    (Reachable settings path → offsetOf? lang cs = offsetOf? lang (unifyBreaks cs))
  agree : '\r' ∉ cs → inline? = onDisk?

/-- **When the two sources agree.** Let a new session be told of a component by a message with its
text, while there is no file, and another one by a message without a text, while the file holds the
same text. They record the same, or both nothing, if and only if the generated file cannot be asked
for or the block has the same offset whether the line breaks of the text are unified or not. So they
agree on all texts without carriage returns. -/
theorem sources_agree_iff {settings : Settings} {absent stored : FileTree} {limits : Limits}
    {withText withoutText : Members} {inline onDisk : Target} {cs : List Char} {e : FileError}
    (hinline : target? (settingsBy withText settings)
      (unwrap withText (start settings absent limits)).message = .ok (some inline))
    (honDisk : target? (settingsBy withoutText settings)
      (unwrap withoutText (start settings stored limits)).message = .ok (some onDisk))
    (hsettings : settingsBy withoutText settings = settingsBy withText settings)
    (huri : onDisk.uri = inline.uri)
    (htext : candidates inline = [Text.ofChars cs])
    (hnone : candidates onDisk = [])
    (habsent : absent.readFile inline.path = .error e)
    (hstored : stored.readFile onDisk.path = .ok (Utf8.encodeChars cs)) :
    ∃ inline? onDisk?,
      Learns lang withText (start settings absent limits) inline.uri inline? ∧
      Learns lang withoutText (start settings stored limits) inline.uri onDisk? ∧
      Sources lang cs (settingsBy withText settings) inline.path inline? onDisk? := by
  have hpath : onDisk.path = inline.path := by
    have hsame := (Target.isOf honDisk).path
    rw [huri, (Target.isOf hinline).path] at hsame
    exact (Option.some.inj (Except.ok.inj hsame)).symm
  have hspeak : inline.path.Speakable := by
    rw [← hpath]
    exact Path.speakable_of_text (speakable_of_checkPath (FileTree.guard_eq_ok hstored).1)
  rw [hpath] at hstored
  have hinlineBlock : decidingBlock (.ofLang lang) (start settings absent limits).files inline
      = .ok (pieceOf? (.ofLang lang) (Text.ofChars cs)) :=
    decidingBlock_inline htext hspeak habsent
  have honDiskBlock : decidingBlock (.ofLang lang) (start settings stored limits).files onDisk
      = .ok (pieceOf? (.ofLang lang) (Text.ofChars (unifyBreaks cs))) :=
    decidingBlock_onDisk hnone (hpath ▸ hstored)
  by_cases hreachable : Reachable (settingsBy withText settings) inline.path
  · refine ⟨offsetOf? lang cs, offsetOf? lang (unifyBreaks cs), ?_, ?_, ?_⟩
    · exact learns_of_decidingBlock rfl hinline hspeak hinlineBlock (fun _ => rfl)
        fun h => absurd hreachable h
    · rw [← huri]
      refine learns_of_decidingBlock rfl honDisk (hpath ▸ hspeak) honDiskBlock (fun _ => rfl)
        fun h => absurd hreachable ?_
      rwa [← hpath, ← hsettings]
    · refine ⟨fun _ => ⟨rfl, rfl⟩, fun h => absurd hreachable h, ?_, fun hreturn => ?_⟩
      · exact ⟨fun hsame _ => hsame, fun hsame => hsame hreachable⟩
      · rw [unifyBreaks_of_notMem hreturn]
  · refine ⟨none, none, ?_, ?_, ?_⟩
    · exact learns_of_decidingBlock rfl hinline hspeak hinlineBlock
        (fun h => absurd h hreachable) fun _ => rfl
    · rw [← huri]
      refine learns_of_decidingBlock rfl honDisk (hpath ▸ hspeak) honDiskBlock
        (fun h => absurd ?_ hreachable) fun _ => rfl
      rwa [← hpath, ← hsettings]
    · refine ⟨fun h => absurd h hreachable, fun _ => ⟨rfl, rfl⟩, ?_, fun _ => rfl⟩
      exact iff_of_true rfl fun h => absurd h hreachable

/-- A block in the second line of a text with a line feed. -/
theorem sources_agree_iff_line_feed :
    ∃ settings absent stored withText withoutText inline onDisk cs e,
      settings = ⟨⟨.root, []⟩, "src", "gen", "gleam", "gleam", 8⟩ ∧
      absent = FileTree.empty [] ∧
      stored = (FileTree.empty []).plant ["src", "A.vue"] (.file (Utf8.encodeChars cs) false) ∧
      cs = "\n<script lang=gleam>x</script>".toList ∧
      (target? (settingsBy withText settings) (unwrap withText (start settings absent)).message
          = .ok (some inline) ∧
        target? (settingsBy withoutText settings)
          (unwrap withoutText (start settings stored)).message = .ok (some onDisk) ∧
        settingsBy withoutText settings = settingsBy withText settings ∧
        onDisk.uri = inline.uri ∧ candidates inline = [Text.ofChars cs] ∧ candidates onDisk = [] ∧
        absent.readFile inline.path = .error e ∧
        stored.readFile onDisk.path = .ok (Utf8.encodeChars cs) ∧ '\r' ∉ cs) ∧
      ∃ inline? onDisk?,
        Learns "gleam" withText (start settings absent) inline.uri inline? ∧
        Learns "gleam" withoutText (start settings stored) inline.uri onDisk? ∧
        Sources "gleam" cs (settingsBy withText settings) inline.path inline? onDisk? := by
  refine ⟨_, _, _, [(Text.ofString "params", .obj [(Text.ofString "textDocument", .obj [
      (Text.ofString "uri", .str "file:///src/A.vue"),
      (Text.ofString "text", .str "\n<script lang=gleam>x</script>")])])],
    [(Text.ofString "params", .obj [(Text.ofString "textDocument", .obj [
      (Text.ofString "uri", .str "file:///src/A.vue")])])],
    ⟨[(Text.ofString "textDocument", .obj [(Text.ofString "uri", .str "file:///src/A.vue"),
        (Text.ofString "text", .str "\n<script lang=gleam>x</script>")])],
      [(Text.ofString "uri", .str "file:///src/A.vue"),
        (Text.ofString "text", .str "\n<script lang=gleam>x</script>")],
      "file:///src/A.vue", ⟨.root, ["src", "A.vue"]⟩, "file:///src/gen/a.gleam"⟩,
    ⟨[(Text.ofString "textDocument", .obj [(Text.ofString "uri", .str "file:///src/A.vue")])],
      [(Text.ofString "uri", .str "file:///src/A.vue")],
      "file:///src/A.vue", ⟨.root, ["src", "A.vue"]⟩, "file:///src/gen/a.gleam"⟩, _,
    .system .notFound "/src/A.vue", rfl, rfl, rfl, rfl, ?_⟩
  generalize hsettings : Settings.mk _ _ _ _ _ _ = settings
  generalize htree : FileTree.empty [] = absent
  generalize hcs : String.toList _ = cs
  generalize hstored : FileTree.plant _ _ _ = stored
  generalize hwithText : [(Text.ofString "params", Json.obj [(_, Json.obj [_, _])])] = withText
  refine (and_iff_left_of_imp fun h => ?_).mpr ?_
  · obtain ⟨hinline, honDisk, hsame, huri, htext, hnone, habsent, hdisk, -⟩ := h
    exact sources_agree_iff hinline honDisk hsame huri htext hnone habsent hdisk
  · subst hstored hcs hsettings htree hwithText
    decide +kernel

/-- Behind a carriage return, a block has no line above it in the text of a message, and one on
disk. -/
theorem carriage_return_counted_on_disk :
    ∃ settings withText withoutText cs,
      settings = ⟨⟨.root, []⟩, "src", "gen", "gleam", "gleam", 8⟩ ∧
      withText = [(Text.ofString "params", .obj [(Text.ofString "textDocument", .obj [
        (Text.ofString "uri", .str "file:///src/A.vue"),
        (Text.ofString "text", .str (Text.ofChars cs))])])] ∧
      withoutText = [(Text.ofString "params", .obj [(Text.ofString "textDocument", .obj [
        (Text.ofString "uri", .str "file:///src/A.vue")])])] ∧
      cs = "\r<script lang=gleam>x</script>".toList ∧
      (incoming (.ofLang "gleam") withText (start settings (.empty []))).1.ledger.get?
        (.document "file:///src/A.vue") = some 0 ∧
      (incoming (.ofLang "gleam") withoutText (start settings ((FileTree.empty []).plant
        ["src", "A.vue"] (.file (Utf8.encodeChars cs) false)))).1.ledger.get?
        (.document "file:///src/A.vue") = some 1 := by
  refine ⟨_, _, _, _, rfl, rfl, rfl, rfl, ?_⟩
  decide +kernel

end Session

end SfcProxy
