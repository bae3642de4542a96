import SfcProxy.Proofs.FileUri
import SfcProxy.Proofs.GeneratedFile

/-!
# Two kinds of URIs

The map leads from URIs that end like generated files to URIs that end like components, and no URI
ends in both ways. So a component is never a key, and no search finds a component for a component.
What the map gives out needs not be looked up again: it rests, and so does a URI for which nothing
was found. Looking up other URIs does not change that.

A search for a component may fail in one way, since the source directory may have a name that cannot
be given to the system. Then looking up what rests fails, too.

## Main definitions

* `FileUri.EndsIn`: a URI has a path whose last name ends in something, but for case
* `UriMap.ByKind`: keys end like generated files, and values like components
* `UriMap.Resting`: a URI is no key, and no search finds anything for it

## Main results

* `UriMap.ByKind.register`, `UriMap.ByKind.lookedUp`: the map keeps the kinds apart
* `UriMap.Resting.lookedUp`: what rests stays at rest
* `UriMap.LookedUp.resting`: what is given out rests
* `UriMap.toComponent_of_resting`: looking up what rests changes nothing
-/

namespace SfcProxy

/-- The ending of a name from its last dot on is an ending of the name. -/
theorem Path.suffix_name (p : Path) : p.suffix <:+ p.name := by
  unfold Path.suffix
  dsimp only
  split
  · exact List.nil_suffix
  · rename_i hlong
    rw [Bool.or_eq_true, not_or, decide_eq_true_eq] at hlong
    have hsplit := List.takeWhile_append_dropWhile (p := (· != TextUnit.scalar '.'))
      (l := p.name.reverse)
    have hdot := List.head?_dropWhile_not (· != TextUnit.scalar '.') p.name.reverse
    generalize p.name.reverse.takeWhile (· != .scalar '.') = ending at hlong hsplit ⊢
    cases hrest : p.name.reverse.dropWhile (· != .scalar '.') with
    | nil =>
      rw [hrest, List.append_nil] at hsplit
      have hlength := congrArg List.length hsplit
      rw [List.length_reverse] at hlength
      omega
    | cons u rest =>
      rw [hrest] at hsplit hdot
      obtain rfl : u = .scalar '.' := by simpa using hdot
      refine ⟨rest.reverse, ?_⟩
      rw [← List.reverse_reverse p.name, ← hsplit, List.reverse_append, List.reverse_cons,
        List.append_assoc, List.singleton_append]

namespace FileUri

/-- The URI has a path whose last name ends in something, but for case. -/
def EndsIn (ending uri : Text) : Prop :=
  ∃ path, toPath? uri = .ok (some path) ∧ ending <:+ path.name.lower

theorem endsIn_of_isComponent {uri : Text} (h : isComponent uri = .ok true) :
    EndsIn GeneratedFile.componentSuffix uri := by
  obtain ⟨path?, hpath, h⟩ := bind_eq_ok h
  cases path? with
  | none => cases h
  | some path =>
    refine ⟨path, hpath, (Text.suffix_lower_iff GeneratedFile.steady_componentSuffix).mpr
      ⟨path.suffix, path.suffix_name, ?_⟩⟩
    have hlower : path.suffix.lower = GeneratedFile.componentSuffix :=
      of_decide_eq_true (Except.ok.inj h)
    exact Text.flatMap_lower_of_lowerAfter hlower GeneratedFile.steady_componentSuffix

/-- The URI of a path ends as the path does. -/
theorem endsIn_generated {p : Path} {uri : Text} (h : ofPath p = .ok uri)
    (hname : GeneratedFile.generatedSuffix <:+ p.name.lower) :
    EndsIn GeneratedFile.generatedSuffix uri :=
  suffix_name_of_ofPath h GeneratedFile.steady_generatedSuffix hname (by decide) (by decide)
    (by decide)

theorem endsIn_component {p : Path} {uri : Text} (h : ofPath p = .ok uri)
    (hname : GeneratedFile.isComponentName p.name = true) :
    EndsIn GeneratedFile.componentSuffix uri :=
  suffix_name_of_ofPath h GeneratedFile.steady_componentSuffix
    (List.isSuffixOf_iff_suffix.mp hname) (by decide) (by decide) (by decide)

/-- No URI ends in both ways. -/
theorem not_endsIn_both {uri : Text} (h : EndsIn GeneratedFile.generatedSuffix uri) :
    ¬ EndsIn GeneratedFile.componentSuffix uri := by
  obtain ⟨path, hpath, hends⟩ := h
  rintro ⟨path', hpath', hends'⟩
  obtain rfl : path = path' := by
    rw [hpath] at hpath'
    exact Option.some.inj (Except.ok.inj hpath')
  exact GeneratedFile.not_both_suffixes hends hends'

end FileUri

namespace UriMap

open GeneratedFile (generatedSuffix componentSuffix)

variable {settings : Settings} {tree : FileTree} {map : UriMap} {generated component uri : Text}

/-! ## Searches -/

/-- A search finds a component for a generated file. -/
theorem discovery_spec (h : discovery settings tree generated = .ok (some component)) :
    FileUri.EndsIn generatedSuffix generated ∧ FileUri.EndsIn componentSuffix component := by
  obtain ⟨path, found, log, hpath, hfound, hcomponent⟩ := discovery_eq_found h
  obtain ⟨hname, hends⟩ := GeneratedFile.toComponent_found hfound
  exact ⟨⟨path, hpath, hends⟩, FileUri.endsIn_component hcomponent hname⟩

/-- A search finds nothing for a component: it comes to an end, or the system is not even asked. -/
theorem discovery_of_component (h : FileUri.EndsIn componentSuffix uri) :
    discovery settings tree uri = .ok none ∨
      ∃ e, e.isSystem = false ∧ discovery settings tree uri = .error (.file e) := by
  obtain ⟨path, hpath, hends⟩ := h
  unfold discovery
  rw [hpath]
  dsimp only
  split
  · exact .inl rfl
  · rcases GeneratedFile.toComponent_of_componentName hends with ⟨log, hnone⟩ | ⟨e, he, herror⟩
    · rw [hnone]
      exact .inl rfl
    · rw [herror]
      exact .inr ⟨e, he, rfl⟩

theorem discovery_ne_file (h : GeneratedFile.Searchable settings tree) (uri : Text)
    (e : FileError) : discovery settings tree uri ≠ .error (.file e) := by
  unfold discovery
  split
  · nofun
  · nofun
  · rename_i path _
    split
    · nofun
    · split
      · rename_i herror
        exact absurd herror (GeneratedFile.toComponent_ne_error h path _)
      · nofun
      · split <;> nofun

/-! ## Keys and values -/

/-- Keys end like generated files, and values like components. -/
def ByKind (map : UriMap) : Prop :=
  ∀ entry ∈ map, FileUri.EndsIn generatedSuffix entry.1 ∧ FileUri.EndsIn componentSuffix entry.2

/-- A component ends like one, and the URI of its generated file like a generated file. -/
theorem endsIn_of_toGenerated? (hcomponent : FileUri.isComponent component = .ok true)
    (h : toGenerated? settings component = .ok (some generated)) :
    FileUri.EndsIn generatedSuffix generated ∧ FileUri.EndsIn componentSuffix component := by
  obtain ⟨path, file, -, hfile, huri⟩ := toGenerated?_eq_ok h
  refine ⟨FileUri.endsIn_generated huri ?_, FileUri.endsIn_of_isComponent hcomponent⟩
  rw [GeneratedFile.name_ofComponent? hfile]
  exact GeneratedFile.suffix_lower_nameOf path.name

theorem ByKind.register (h : ByKind map) (hgenerated : FileUri.EndsIn generatedSuffix generated)
    (hcomponent : FileUri.EndsIn componentSuffix component) (settings : Settings) :
    ByKind (map.register settings generated component).map :=
  forall_mem_register h ⟨hgenerated, hcomponent⟩ settings

/-- The map keeps the kinds apart, and gives out components for generated files. -/
theorem ByKind.lookedUp (h : ByKind map) {outcome : Except Error (Option Text)} {map' : UriMap}
    (hlookedUp : LookedUp settings tree map uri outcome map') :
    ByKind map' ∧ ∀ component, outcome = .ok (some component) →
      FileUri.EndsIn generatedSuffix uri ∧ FileUri.EndsIn componentSuffix component :=
  hlookedUp.forall_mem h fun _ => discovery_spec

/-! ## Rest -/

/-- A URI is no key, and no search finds anything for it. -/
def Resting (settings : Settings) (tree : FileTree) (map : UriMap) (uri : Text) : Prop :=
  uri = [] ∨ (∀ entry ∈ map, entry.1 ≠ uri) ∧
    (discovery settings tree uri = .ok none ∨
      ∃ e, e.isSystem = false ∧ discovery settings tree uri = .error (.file e))

/-- A component rests. -/
theorem ByKind.resting (h : ByKind map) (huri : FileUri.EndsIn componentSuffix uri) :
    Resting settings tree map uri := by
  refine .inr ⟨?_, discovery_of_component huri⟩
  rintro entry hentry rfl
  exact FileUri.not_endsIn_both (h entry hentry).1 huri

theorem discovery_ne_some
    (h : discovery settings tree uri = .ok none ∨
      ∃ e, e.isSystem = false ∧ discovery settings tree uri = .error (.file e))
    (component : Text) : discovery settings tree uri ≠ .ok (some component) := by
  rcases h with h | ⟨e, -, h⟩
  · rw [h]
    nofun
  · rw [h]
    nofun

/-- Looking up what rests changes nothing. It finds nothing, unless the search fails. -/
theorem toComponent_of_resting (h : Resting settings tree map uri) :
    (map.toComponent settings tree uri).map = map ∧
      ((map.toComponent settings tree uri).outcome = .ok none ∨ ∃ e, e.isSystem = false ∧
        discovery settings tree uri = .error (.file e) ∧
        (map.toComponent settings tree uri).outcome = .error (.file e)) := by
  have hlookedUp := toComponent_cases settings tree map uri
  rcases h with rfl | ⟨habsent, hdiscovery⟩
  · exact ⟨rfl, .inl rfl⟩
  · generalize (map.toComponent settings tree uri).outcome = outcome at hlookedUp ⊢
    generalize (map.toComponent settings tree uri).map = map' at hlookedUp ⊢
    cases hlookedUp with
    | empty | missed => exact ⟨rfl, .inl rfl⟩
    | remembered entry =>
      rw [use?_of_absent habsent] at entry
      cases entry
    | failed _ failure =>
      rcases hdiscovery with hnone | ⟨e, he, herror⟩
      · rw [failure] at hnone
        cases hnone
      · rw [failure] at herror
        exact ⟨rfl, .inr ⟨e, he, failure.trans herror, herror⟩⟩
    | found _ component_eq => exact absurd component_eq (discovery_ne_some hdiscovery _)
    | overfull _ component_eq => exact absurd component_eq (discovery_ne_some hdiscovery _)

/-- What is given out rests. -/
theorem LookedUp.resting {component? : Option Text} {map' : UriMap}
    (hlookedUp : LookedUp settings tree map uri (.ok component?) map') (h : ByKind map) :
    Resting settings tree map' (component?.getD uri) := by
  obtain ⟨hkind, hcomponent⟩ := h.lookedUp hlookedUp
  cases component? with
  | some component => exact hkind.resting (hcomponent component rfl).2
  | none =>
    cases hlookedUp with
    | empty blank => exact .inl blank
    | missed absent nothing => exact .inr ⟨absent, .inl nothing⟩

/-- What rests stays at rest, whatever else is looked up. -/
theorem Resting.lookedUp (h : Resting settings tree map uri) {other : Text}
    {outcome : Except Error (Option Text)} {map' : UriMap}
    (hlookedUp : LookedUp settings tree map other outcome map') :
    Resting settings tree map' uri := by
  rcases h with rfl | ⟨habsent, hdiscovery⟩
  · exact .inl rfl
  · refine .inr ⟨?_, hdiscovery⟩
    refine (hlookedUp.forall_mem habsent ?_).1
    rintro component hcomponent rfl
    exact discovery_ne_some hdiscovery component hcomponent

end UriMap

end SfcProxy
