import SfcProxy.Proofs.Failure
import SfcProxy.Proofs.Ledger
import SfcProxy.UriMap

/-!
# What the URI map holds

Generated files and components have file URIs. The map learns them from messages about components
and from the search of the file tree, and in both cases both URIs of an entry are file URIs. So a
text that is none, such as the name of a member, is never taken for a generated file and never
given out as a component.

## Main definitions

* `FileUri.HasScheme`: a text starts like a file URI
* `UriMap.OfFiles`: all URIs in a map do
* `UriMap.discovery`: what a search finds, whatever the map holds
* `UriMap.LookedUp`: how looking a URI up can end

## Main results

* `FileUri.hasScheme_of_toPath?`, `FileUri.hasScheme_of_ofPath`: texts with paths, and the URIs of
  paths
* `UriMap.toComponent_cases`: looking a URI up ends in these ways alone
* `UriMap.LookedUp.forall_mem`: what stays true of the entries
* `UriMap.OfFiles.register`, `UriMap.OfFiles.toComponent`: the map keeps to file URIs
* `UriMap.toComponent_register`: what was remembered is found
-/

namespace SfcProxy

namespace FileUri

/-- The text starts like a file URI. -/
def HasScheme (uri : Text) : Prop :=
  scheme <+: uri

theorem HasScheme.ne_nil {uri : Text} (h : HasScheme uri) : uri ≠ [] := by
  rintro rfl
  exact absurd (List.prefix_nil.mp h) (by decide)

theorem hasScheme_of_toPath? {uri : Text} {path : Path} (h : toPath? uri = .ok (some path)) :
    HasScheme uri := by
  unfold toPath? at h
  split at h
  · rename_i hscheme
    exact List.isPrefixOf_iff_prefix.mp hscheme
  · cases h

theorem hasScheme_of_ofPath {p : Path} {uri : Text} (h : ofPath p = .ok uri) : HasScheme uri := by
  obtain ⟨⟨host, path⟩, -, h⟩ := bind_eq_ok h
  have hjoin : ∀ written, (do return ("file://" : Text) ++ (← escape host) ++ written) = .ok uri →
      HasScheme uri := by
    intro written h
    obtain ⟨host, -, h⟩ := bind_eq_ok h
    cases h
    exact ⟨("//" : Text) ++ host ++ written, by simp [scheme, Text.ofString, Text.ofChars]⟩
  dsimp only at h
  generalize (if path.head? = some (.scalar '/') then path else .scalar '/' :: path) = path at h
  split at h
  · obtain ⟨rest, -, h⟩ := bind_eq_ok h
    exact hjoin _ h
  · obtain ⟨written, -, h⟩ := bind_eq_ok h
    exact hjoin _ h

end FileUri

namespace UriMap

variable {settings : Settings} {tree : FileTree} {map : UriMap} {generated component uri : Text}

/-! ## Searches -/

/-- What a search finds for a URI, whatever the map holds. -/
def discovery (settings : Settings) (tree : FileTree) (generated : Text) :
    Except Error (Option Text) :=
  match FileUri.toPath? generated with
  | .error e => .error (.uri e)
  | .ok none => .ok none
  | .ok (some path) =>
    if !GeneratedFile.isGenerated settings path then .ok none
    else
      match GeneratedFile.toComponent settings tree path with
      | .error e => .error (.file e)
      | .ok (none, _) => .ok none
      | .ok (some found, _) =>
        match FileUri.ofPath found with
        | .error e => .error (.uri e)
        | .ok component => .ok (some component)

/-- What is found is the URI of the component of a generated file. -/
theorem discovery_eq_found (h : discovery settings tree generated = .ok (some component)) :
    ∃ path found log, FileUri.toPath? generated = .ok (some path) ∧
      GeneratedFile.toComponent settings tree path = .ok (some found, log) ∧
      FileUri.ofPath found = .ok component := by
  unfold discovery at h
  split at h
  · cases h
  · cases h
  · rename_i path hpath
    split at h
    · cases h
    · split at h
      · cases h
      · cases h
      · rename_i found log hfound
        split at h
        · cases h
        · rename_i hcomponent
          cases h
          exact ⟨path, found, log, hpath, hfound, hcomponent⟩

/-! ## Looking up -/

/-- How looking a URI up can end: there is nothing to look up, the URI is a key, or it is none and a
search finds nothing, fails, or finds a component, which is remembered if the bound can be kept. -/
inductive LookedUp (settings : Settings) (tree : FileTree) (map : UriMap) (uri : Text) :
    Except Error (Option Text) → UriMap → Prop
  | empty (blank : uri = []) : LookedUp settings tree map uri (.ok none) map
  | remembered {component : Text} {used : UriMap} (entry : map.use? uri = some (component, used)) :
      LookedUp settings tree map uri (.ok (some component)) used
  | missed (absent : ∀ entry ∈ map, entry.1 ≠ uri)
      (nothing : discovery settings tree uri = .ok none) :
      LookedUp settings tree map uri (.ok none) map
  | failed {e : Error} (absent : ∀ entry ∈ map, entry.1 ≠ uri)
      (failure : discovery settings tree uri = .error e) :
      LookedUp settings tree map uri (.error e) map
  | found {component : Text} (absent : ∀ entry ∈ map, entry.1 ≠ uri)
      (component_eq : discovery settings tree uri = .ok (some component)) :
      LookedUp settings tree map uri (.ok (some component))
        (map.register settings uri component).map
  | overfull {component : Text} {e : Error} (absent : ∀ entry ∈ map, entry.1 ≠ uri)
      (component_eq : discovery settings tree uri = .ok (some component))
      (refusal : (map.register settings uri component).outcome = .error e) :
      LookedUp settings tree map uri (.error e) (map.register settings uri component).map

theorem discover_eq (settings : Settings) (tree : FileTree) (uri : Text) (map : UriMap) :
    (map.discover settings tree uri).outcome = (match discovery settings tree uri with
      | .ok (some component) =>
        (map.register settings uri component).outcome.map fun _ => some component
      | other => other) ∧
    (map.discover settings tree uri).map = match discovery settings tree uri with
      | .ok (some component) => (map.register settings uri component).map
      | _ => map := by
  unfold discover discovery
  dsimp only
  rcases FileUri.toPath? uri with e | _ | path
  · exact ⟨rfl, rfl⟩
  · exact ⟨rfl, rfl⟩
  · dsimp only
    split
    · exact ⟨rfl, rfl⟩
    · rcases GeneratedFile.toComponent settings tree path with e | ⟨_ | found, log⟩
      · exact ⟨rfl, rfl⟩
      · exact ⟨rfl, rfl⟩
      · dsimp only
        cases FileUri.ofPath found with
        | error e => exact ⟨rfl, rfl⟩
        | ok component =>
          dsimp only
          cases (map.register settings uri component).outcome <;> exact ⟨rfl, rfl⟩

theorem discover_cases (settings : Settings) (tree : FileTree) {map : UriMap} {uri : Text}
    (habsent : ∀ entry ∈ map, entry.1 ≠ uri) :
    LookedUp settings tree map uri (map.discover settings tree uri).outcome
      (map.discover settings tree uri).map := by
  obtain ⟨houtcome, hmap⟩ := discover_eq settings tree uri map
  rw [houtcome, hmap]
  rcases hdiscovery : discovery settings tree uri with e | _ | component
  · exact .failed habsent hdiscovery
  · exact .missed habsent hdiscovery
  · dsimp only
    cases hregister : (map.register settings uri component).outcome with
    | error e => exact .overfull habsent hdiscovery hregister
    | ok _ => exact .found habsent hdiscovery

theorem absent_of_use? {key : Text} (h : map.use? key = none) : ∀ entry ∈ map, entry.1 ≠ key := by
  intro entry hentry hkey
  rw [Lru.use?, Option.map_eq_none_iff, Lru.get?, Option.map_eq_none_iff, List.find?_eq_none] at h
  exact h entry hentry (decide_eq_true hkey)

theorem use?_of_absent {key : Text} (h : ∀ entry ∈ map, entry.1 ≠ key) : map.use? key = none := by
  rw [Lru.use?, Option.map_eq_none_iff, Lru.get?, Option.map_eq_none_iff, List.find?_eq_none]
  exact fun entry hentry hkey => h entry hentry (of_decide_eq_true hkey)

theorem toComponent_cases (settings : Settings) (tree : FileTree) (map : UriMap) (uri : Text) :
    LookedUp settings tree map uri (map.toComponent settings tree uri).outcome
      (map.toComponent settings tree uri).map := by
  unfold UriMap.toComponent
  split
  · rename_i hempty
    exact .empty (List.isEmpty_iff.mp hempty)
  · split
    · rename_i huse
      exact .remembered huse
    · rename_i huse
      exact discover_cases settings tree (absent_of_use? huse)

/-! ## Entries -/

/-- What is true of the entries of a map stays true if it is true of one that comes in. -/
theorem forall_mem_register {P : Text × Text → Prop} (h : ∀ entry ∈ map, P entry)
    (hnew : P (generated, component)) (settings : Settings) :
    ∀ entry ∈ (map.register settings generated component).map, P entry := by
  intro entry hentry
  rcases Lru.mem_insert.mp (Lru.mem_of_mem_trim hentry) with ⟨hentry, -⟩ | rfl
  · exact h entry hentry
  · exact hnew

/-- What is true of the entries of a map and of all that a search finds stays true of the entries,
and is true of what is given out. -/
theorem LookedUp.forall_mem {P : Text × Text → Prop} {outcome : Except Error (Option Text)}
    {map' : UriMap} (hlookedUp : LookedUp settings tree map uri outcome map')
    (h : ∀ entry ∈ map, P entry)
    (hfound : ∀ component, discovery settings tree uri = .ok (some component) →
      P (uri, component)) :
    (∀ entry ∈ map', P entry) ∧ ∀ component, outcome = .ok (some component) →
      P (uri, component) := by
  cases hlookedUp with
  | empty | missed | failed => exact ⟨h, nofun⟩
  | remembered entry =>
    obtain ⟨hentry, hused⟩ := Lru.forall_mem_of_use? entry h
    refine ⟨hused, fun component hsome => ?_⟩
    cases hsome
    exact hentry
  | found _ component_eq =>
    have hnew := hfound _ component_eq
    refine ⟨forall_mem_register h hnew settings, fun component hsome => ?_⟩
    cases hsome
    exact hnew
  | overfull _ component_eq =>
    exact ⟨forall_mem_register h (hfound _ component_eq) settings, nofun⟩

/-! ## URIs of files -/

/-- All URIs in a map are those of files. -/
def OfFiles (map : UriMap) : Prop :=
  ∀ entry ∈ map, FileUri.HasScheme entry.1 ∧ FileUri.HasScheme entry.2

/-- A generated URI names the generated file of the component behind the other URI. -/
theorem toGenerated?_eq_ok (h : toGenerated? settings component = .ok (some generated)) :
    ∃ path file, FileUri.toPath? component = .ok (some path) ∧
      GeneratedFile.ofComponent? settings path = some file ∧
      FileUri.ofPath file = .ok generated := by
  obtain ⟨path?, hpath, h⟩ := bind_eq_ok h
  cases path? with
  | none => cases h
  | some path =>
    dsimp only at h
    split at h
    · cases h
    · rename_i file hfile
      obtain ⟨uri, huri, h⟩ := bind_eq_ok h
      cases h
      exact ⟨path, file, hpath, hfile, huri⟩

theorem hasScheme_of_toGenerated? (h : toGenerated? settings component = .ok (some generated)) :
    FileUri.HasScheme component ∧ FileUri.HasScheme generated := by
  obtain ⟨path, file, hpath, -, huri⟩ := toGenerated?_eq_ok h
  exact ⟨FileUri.hasScheme_of_toPath? hpath, FileUri.hasScheme_of_ofPath huri⟩

theorem discovery_hasScheme (h : discovery settings tree generated = .ok (some component)) :
    FileUri.HasScheme generated ∧ FileUri.HasScheme component := by
  obtain ⟨path, found, log, hpath, -, hcomponent⟩ := discovery_eq_found h
  exact ⟨FileUri.hasScheme_of_toPath? hpath, FileUri.hasScheme_of_ofPath hcomponent⟩

theorem OfFiles.register (h : OfFiles map) (hgenerated : FileUri.HasScheme generated)
    (hcomponent : FileUri.HasScheme component) (settings : Settings) :
    OfFiles (map.register settings generated component).map :=
  forall_mem_register h ⟨hgenerated, hcomponent⟩ settings

/-- The map keeps to file URIs, and so do its answers. -/
theorem OfFiles.toComponent (h : OfFiles map) (settings : Settings) (tree : FileTree)
    (generated : Text) : OfFiles (map.toComponent settings tree generated).map ∧
      ∀ component, (map.toComponent settings tree generated).outcome = .ok (some component) →
        FileUri.HasScheme generated ∧ FileUri.HasScheme component :=
  (toComponent_cases settings tree map generated).forall_mem h fun _ => discovery_hasScheme

/-- The way back to a component that was remembered, within any bound that leaves room for it. -/
theorem toComponent_register (hgenerated : generated ≠ []) (hbound : 1 ≤ settings.maxTracked)
    (tree : FileTree) (component : Text) (map : UriMap) :
    ((map.register settings generated component).map.toComponent settings tree
      generated).outcome = .ok (some component) := by
  have hget : (map.register settings generated component).map.get? generated = some component :=
    Lru.get?_trim_insert hbound generated component map
  rw [UriMap.toComponent, if_neg (by rwa [List.isEmpty_iff]), Lru.use?, hget]
  rfl

end UriMap

end SfcProxy
