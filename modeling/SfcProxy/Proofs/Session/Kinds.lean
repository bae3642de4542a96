import SfcProxy.Proofs.Session.Effect
import SfcProxy.Proofs.Session.Settling

/-!
# Generated files and components do not mix

The map of a session is filled from two sides: by messages about components, and by searches for
generated files that the server speaks of. Both keep to the two kinds of URIs, so they are kept
apart at all times. Hence a component that the map leads to is looked up in vain, and a value whose
URIs were replaced stays as it is when they are replaced once more.

There is one way in which the lookup of a component does not end in vain but fails: the editor may
have given the source directory a name that the system cannot be asked about.

## Main definitions

* `KeptApart`: the kinds are kept apart, with what follows from it

## Main results

* `byKind_after`: the map keeps to the kinds at all times
* `kinds_kept_apart`: what follows from it at any time
-/

namespace SfcProxy.Session

open GeneratedFile (generatedSuffix componentSuffix)

variable {extractor : Extractor} {message : Members} {s : Session}

/-! ## Messages -/

/-- A message of the editor leaves the map as it is, or enters the component that it is about. -/
theorem incoming_uris (extractor : Extractor) (message : Members) (s : Session) :
    (incoming extractor message s).1.uris = s.uris ∨ ∃ target : Target,
      target.IsOf (settingsBy message s.settings) (unwrap message s).message ∧
        (incoming extractor message s).1.uris = (s.uris.register (settingsBy message s.settings)
          target.generated target.uri).map := by
  obtain ⟨hsettings, -, huris⟩ := prepare_kept extractor message s
  have hprepared := prepare_cases extractor message s
  rw [incoming_eq]
  generalize prepare extractor message s = prepared at hsettings huris hprepared ⊢
  obtain ⟨⟨settings, ledger, uris, files, log⟩, outcome⟩ := prepared
  dsimp only at hsettings huris hprepared ⊢
  subst hsettings huris
  cases hprepared with
  | kept | failed | unwritten => exact .inl rfl
  | redirected seen redirects =>
    dsimp only
    rw [enter_eq]
    dsimp only
    split
    · exact .inl rfl
    · exact .inr ⟨_, redirects.isOf, (conclude_kept _ _ _ _ _ _).2.2⟩

theorem byKind_incoming (h : s.uris.ByKind) (extractor : Extractor) (message : Members) :
    (incoming extractor message s).1.uris.ByKind := by
  rcases incoming_uris extractor message s with hsame | ⟨target, htarget, hregister⟩
  · rwa [hsame]
  · obtain ⟨hgenerated, hcomponent⟩ :=
      UriMap.endsIn_of_toGenerated? htarget.isComponent htarget.generated
    rw [hregister]
    exact h.register hgenerated hcomponent _

open Relocation in
/-- What the translation of a message looks up keeps the map to the kinds. -/
theorem relocateMessage_leads (settings : Settings) (files : FileTree) (calls : Nat)
    (message : Members) :
    Leads settings files (fun _ => True) (relocateMessage settings files calls message)
      fun _ _ => True := by
  have hkey : Leads settings files (fun _ => True)
      (relocateKey settings files (subject message)) fun _ _ => True := by
    unfold relocateKey
    split
    · exact (leads_relocateUri _).map fun _ _ _ => trivial
    · exact .pure fun _ _ => trivial
  have hsubject : Leads settings files (fun _ => True)
      (relocateSubject settings files calls message) fun _ _ => True := by
    rw [relocateSubject_eq]
    split
    · exact .pure fun _ _ => trivial
    · exact (relocate_leads calls _).map fun _ _ _ => trivial
  exact hkey.map₂ hsubject (fun _ _ _ _ h => h) fun _ _ _ _ h => h

theorem byKind_outgoing (h : s.uris.ByKind) (message : Members) :
    (outgoing message s).1.uris.ByKind := by
  have hlater := (relocateMessage_leads s.settings s.files s.limits.relocating message s.uris [] h
    trivial).1
  have htranslate : (translate message s).1.uris.ByKind := hlater.byKind h
  rw [outgoing_eq]
  split
  · exact htranslate
  · rwa [settle_uris]

/-! ## Runs -/

theorem byKind_turn (extractor : Extractor) (s : Session) (t : Turn) (h : s.uris.ByKind) :
    (turn extractor s t).uris.ByKind := by
  cases t with
  | editor body =>
    rw [turn, fromEditor, pass_uris]
    split
    · exact byKind_incoming h extractor _
    · exact h
  | server body =>
    rw [turn, fromServer, pass_uris]
    split
    · exact byKind_outgoing h _
    · exact h
  | files tree => exact h

/-- The map keeps to the kinds at all times. -/
theorem byKind_after (extractor : Extractor) (turns : List Turn) (settings : Settings)
    (files : FileTree) (limits : Limits) :
    (after extractor turns (start settings files limits)).uris.ByKind :=
  after_induction (P := fun s => s.uris.ByKind) (byKind_turn extractor) turns nofun

/-- The kinds of URIs are kept apart: keys end like generated files and values like components, so
nothing is found for a value, and a value whose URIs were replaced stays as it is. Where a search
fails, it does so because the system cannot be asked. -/
structure KeptApart (s : Session) : Prop where
  keys : ∀ entry ∈ s.uris, FileUri.EndsIn generatedSuffix entry.1
  values : ∀ entry ∈ s.uris, FileUri.EndsIn componentSuffix entry.2
  vain : ∀ entry ∈ s.uris, Relocation.Still s.settings s.files
    (Unsearchable s.settings s.files) s.uris entry.2
  twice : ∀ calls v w later log log',
    (relocate s.settings s.files calls v).run.run (s.uris, log) = (.ok w, later, log') →
      Relocation.Quiet (Unsearchable s.settings s.files) later
        (relocate s.settings s.files calls w) w
  searchable : GeneratedFile.Searchable s.settings s.files →
    ∀ e, ¬ Unsearchable s.settings s.files e

/-- **Generated files and components do not mix**, in any session at any time. -/
theorem kinds_kept_apart (extractor : Extractor) (turns : List Turn) (settings : Settings)
    (files : FileTree) (limits : Limits) :
    KeptApart (after extractor turns (start settings files limits)) := by
  have hkind := byKind_after extractor turns settings files limits
  generalize after extractor turns (start settings files limits) = s at hkind
  constructor
  case keys => exact fun entry hentry => (hkind entry hentry).1
  case values => exact fun entry hentry => (hkind entry hentry).2
  case vain => exact fun entry hentry => still_of_resting (hkind.resting (hkind entry hentry).2)
  case twice => exact fun calls v w later log log' hrun => relocate_twice hkind hrun
  case searchable =>
    rintro hsearchable e ⟨uri, fault, -, rfl, hdiscovery⟩
    exact UriMap.discovery_ne_file hsearchable uri fault hdiscovery

/-- The editor names a source directory that the system cannot be asked about, and then a generated
directory in which a component of before lies. Looking that component up fails. -/
theorem lookup_of_component_fails :
    ∃ first second s entry,
      first = Utf8.ofString ("\x7b\"method\":\"initialize\",\"params\":\x7b"
        ++ "\"initializationOptions\":\x7b\"vleam\":\x7b\"sourceDir\":\"a\\u0000b\","
        ++ "\"generatedDir\":\"/g\"\x7d\x7d,"
        ++ "\"textDocument\":\x7b\"uri\":\"file:///a%00b/h/x.vue\","
        ++ "\"text\":\"<script lang=gleam>x</script>\"\x7d\x7d\x7d") ∧
      second = Utf8.ofString ("\x7b\"method\":\"initialize\",\"params\":\x7b"
        ++ "\"initializationOptions\":\x7b\"vleam\":\x7b\"generatedDir\":\"h\"\x7d\x7d\x7d\x7d") ∧
      s = after (.ofLang "gleam") [.editor first, .editor second]
        (start ⟨⟨.root, []⟩, "src", "gen", "gleam", "gleam", 8⟩ (FileTree.empty [])) ∧
      entry ∈ s.uris ∧ entry.2 = "file:///a%00b/h/x.vue" ∧
      (s.uris.toComponent s.settings s.files entry.2).outcome = .error (.file .nullCharacter) := by
  refine ⟨_, _, _, ("file:///g/h/x.gleam", "file:///a%00b/h/x.vue"), rfl, rfl, rfl, ?_⟩
  simp only [Utf8.ofString_append, Utf8.ofString_ofList, Text.ofString_ofList]
  decide +kernel

end SfcProxy.Session
