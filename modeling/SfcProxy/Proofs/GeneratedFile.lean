import SfcProxy.Proofs.Casing
import SfcProxy.Proofs.FileTree
import SfcProxy.Proofs.Text
import SfcProxy.Proofs.UriMap

/-!
# What the search for a component finds

A search in the source directory ends at a component whose generated name is the one that is looked
for. That name ends like a generated file, so a path that ends like a component leads to nothing. A
search may also fail, but the system is never to blame for that: only a directory that cannot even
be given to it makes the search fail.

## Main definitions

* `Speakable`: a text can be given to the system
* `GeneratedFile.Searchable`: the source directory and all names in a tree can

## Main results

* `GeneratedFile.search_spec`: what is found
* `GeneratedFile.toComponent_of_componentName`: nothing is found for a component
* `GeneratedFile.toComponent_ne_error`: searches that do not fail
-/

namespace SfcProxy

/-! ## What can be given to the system -/

/-- A text can be given to the system: it holds no null character, and no surrogate that stands for
nothing. -/
def Speakable (t : Text) : Prop :=
  ∀ u ∈ t, isStraySurrogate u = false ∧ u ≠ .scalar '\x00'

theorem checkPath_of_speakable {t : Text} (h : Speakable t) : checkPath t = .ok () := by
  have hstray : t.any isStraySurrogate = false := by
    rw [List.any_eq_false]
    intro u hu
    rw [(h u hu).1]
    exact Bool.false_ne_true
  have hnull : t.contains (.scalar '\x00') = false := by
    rw [List.contains_eq_mem, decide_eq_false_iff_not]
    exact fun hmem => (h _ hmem).2 rfl
  rw [checkPath, hstray, hnull, if_neg Bool.false_ne_true, if_neg Bool.false_ne_true]

/-- A path of names that can be given to the system. -/
def Path.Speakable (p : Path) : Prop :=
  ∀ part ∈ p.parts, SfcProxy.Speakable part

theorem Speakable.append {s t : Text} (hs : Speakable s) (ht : Speakable t) :
    Speakable (s ++ t) := by
  intro u hu
  rcases List.mem_append.mp hu with hu | hu
  · exact hs u hu
  · exact ht u hu

theorem speakable_join {parts : List Text} (h : ∀ part ∈ parts, Speakable part) :
    Speakable (Text.join "/" parts) := by
  have hslash : Speakable "/" := by
    rw [Speakable]
    decide
  induction parts with
  | nil => nofun
  | cons part parts ih =>
    have hpart := h part List.mem_cons_self
    have hparts := ih fun other hother => h other (List.mem_cons_of_mem part hother)
    cases parts with
    | nil => simpa [Text.join, List.intercalate] using hpart
    | cons next parts =>
      rw [Text.join_cons_cons]
      exact (hpart.append hslash).append hparts

theorem Path.Speakable.text {p : Path} (h : p.Speakable) : SfcProxy.Speakable p.text := by
  have hanchor : ∀ anchor : Anchor, SfcProxy.Speakable anchor.text := by
    intro anchor
    cases anchor <;> (rw [SfcProxy.Speakable]; decide)
  have hhere : SfcProxy.Speakable "." := by
    rw [SfcProxy.Speakable]
    decide
  unfold Path.text
  split
  · exact hhere
  · exact (hanchor _).append (speakable_join h)

theorem Path.Speakable.child {p : Path} (h : p.Speakable) {part : Text}
    (hpart : SfcProxy.Speakable part) : (p.child part).Speakable := by
  intro other hother
  rcases List.mem_append.mp hother with hother | hother
  · exact h other hother
  · rwa [List.mem_singleton.mp hother]

namespace GeneratedFile

variable {settings : Settings} {tree : FileTree} {directory found : Path} {names : List Text}

/-! ## What is found -/

theorem findComponent?_spec {name : Text}
    (h : findComponent? tree directory name = .ok (some found)) :
    isComponentName found.name = true ∧ nameOf found.name = name.lower := by
  obtain ⟨entries, -, h⟩ := bind_eq_ok h
  obtain ⟨⟨entry, node⟩, hentry, rfl⟩ := Option.map_eq_some_iff.mp (Except.ok.inj h)
  have hname : (directory.child entry).name = entry := List.getLastD_concat
  have hspec := List.find?_some hentry
  simp only [Bool.and_eq_true, decide_eq_true_eq] at hspec
  rw [hname]
  exact ⟨hspec.1.2, hspec.2⟩

/-- What is found is a component, whose generated file has the last of the names. -/
theorem search_spec (h : search tree directory names = .ok (some found)) :
    isComponentName found.name = true ∧ nameOf found.name = (names.getLastD []).lower := by
  fun_induction search tree directory names with
  | case1 directory found' hfound | case3 directory name found' hfound =>
    cases h
    exact findComponent?_spec hfound
  | case5 directory name rest hrest next hnext ih =>
    obtain ⟨hcomponent, hname⟩ := ih h
    refine ⟨hcomponent, ?_⟩
    rw [hname]
    cases rest with
    | nil => exact absurd rfl hrest
    | cons next rest => rfl
  | case2 | case4 | case6 | case7 => cases h

/-- Where the generated file of a component lies: below the generated directory as the component
below the source directory, in lower case. -/
theorem ofComponent?_eq_some {path generated : Path}
    (h : ofComponent? settings path = some generated) :
    ∃ above, path.parent.relativeTo? settings.sourcePath = some above ∧
      Text.ofString ".." ∉ above.map Text.lower ∧
      generated = ⟨settings.generatedPath.anchor,
        settings.generatedPath.parts ++ above.map Text.lower ++ [nameOf path.name]⟩ := by
  unfold ofComponent? at h
  split at h
  · cases h
  · rename_i above habove
    dsimp only at h
    split at h
    · cases h
    · rename_i hup
      obtain rfl := Option.some.inj h
      exact ⟨above, habove, by simpa using hup, rfl⟩

/-- The name of a generated file is made from that of the component. -/
theorem name_ofComponent? {path generated : Path}
    (h : ofComponent? settings path = some generated) : generated.name = nameOf path.name := by
  obtain ⟨above, -, -, rfl⟩ := ofComponent?_eq_some h
  exact List.getLastD_concat

theorem suffix_lower_nameOf (name : Text) : generatedSuffix <:+ (nameOf name).lower :=
  (Text.suffix_lower_iff steady_generatedSuffix).mpr
    ⟨generatedSuffix, suffix_nameOf name, flatMap_lower_generatedSuffix⟩

/-- No name ends in both ways. -/
theorem not_both_suffixes {t : Text} (h : generatedSuffix <:+ t) : ¬ componentSuffix <:+ t := by
  intro h'
  rcases List.suffix_or_suffix_of_suffix h h' with hboth | hboth
  all_goals
    revert hboth
    decide

/-- The names below a directory end in the name of the path, unless it is the directory itself. -/
theorem getLastD_of_relativeTo? {path base : Path} (h : path.relativeTo? base = some names)
    (hnames : names ≠ []) : names.getLastD [] = path.name := by
  unfold Path.relativeTo? at h
  split at h
  · rename_i hbelow
    obtain ⟨rest, hrest⟩ := List.isPrefixOf_iff_prefix.mp hbelow.2
    have hdrop : path.parts.drop base.parts.length = rest := by
      rw [← hrest, List.drop_left]
    obtain rfl : rest = names := hdrop ▸ Option.some.inj h
    rcases List.eq_nil_or_concat rest with rfl | ⟨front, last, rfl⟩
    · exact absurd rfl hnames
    · rw [Path.name, ← hrest, List.concat_eq_append, ← List.append_assoc, List.getLastD_concat,
        List.getLastD_concat]
  · cases h

/-- What is found is found by a search below the source directory. -/
theorem toComponent_eq_found {path : Path} {log : Log}
    (h : toComponent settings tree path = .ok (some found, log)) :
    ∃ names, path.relativeTo? settings.generatedPath = some names ∧
      search tree settings.sourcePath names = .ok (some found) ∧ log = [] := by
  unfold toComponent at h
  split at h
  · cases h
  · rename_i names hnames
    split at h
    · rename_i hsearch
      cases h
      exact ⟨names, hnames, hsearch, rfl⟩
    all_goals cases h

/-- The path of a generated file whose component is found ends like one. -/
theorem toComponent_found {path : Path} {log : Log}
    (h : toComponent settings tree path = .ok (some found, log)) :
    isComponentName found.name = true ∧ generatedSuffix <:+ path.name.lower := by
  obtain ⟨names, hnames, hsearch, -⟩ := toComponent_eq_found h
  obtain ⟨hfound, hname⟩ := search_spec hsearch
  refine ⟨hfound, ?_⟩
  have hends := suffix_nameOf found.name
  rw [hname] at hends
  rcases eq_or_ne names [] with rfl | hne
  · exact absurd hends (by decide)
  · rwa [getLastD_of_relativeTo? hnames hne] at hends

/-- A search fails only where the system has no say. -/
theorem toComponent_eq_error {path : Path} {e : FileError}
    (h : toComponent settings tree path = .error e) :
    e.isSystem = false ∧ ∃ names stopped,
      search tree settings.sourcePath names = .error (stopped, e) := by
  unfold toComponent at h
  split at h
  · cases h
  · rename_i names _
    split at h
    · cases h
    · cases h
    · cases h
    · cases h
    · rename_i stopped e' hnotFound hnotDirectory hsystem hsearch
      cases h
      refine ⟨?_, names, stopped, hsearch⟩
      cases e with
      | system cause at_ => exact absurd rfl (hsystem cause at_)
      | nullCharacter => rfl
      | surrogates _ => rfl

/-- Nothing is found for a path that ends like a component. -/
theorem toComponent_of_componentName {path : Path} (h : componentSuffix <:+ path.name.lower) :
    (∃ log, toComponent settings tree path = .ok (none, log)) ∨
      ∃ e, e.isSystem = false ∧ toComponent settings tree path = .error e := by
  cases htoComponent : toComponent settings tree path with
  | error e => exact .inr ⟨e, (toComponent_eq_error htoComponent).1, rfl⟩
  | ok answer =>
    obtain ⟨_ | found, log⟩ := answer
    · exact .inl ⟨log, rfl⟩
    · exact absurd h (not_both_suffixes (toComponent_found htoComponent).2)

/-! ## Searches that do not fail -/

/-- The source directory and all names in a tree can be given to the system. -/
structure Searchable (settings : Settings) (tree : FileTree) : Prop where
  source : settings.sourcePath.Speakable
  names : ∀ entry ∈ tree.nodes, ∀ name ∈ entry.1, Speakable name

theorem isSystem_of_listing (hdirectory : directory.Speakable) {e : FileError}
    (h : tree.listing directory = .error e) : e.isSystem = true :=
  FileTree.isSystem_of_guard (checkPath_of_speakable hdirectory.text) h

theorem speakable_of_listing (h : Searchable settings tree) {entries : List (Text × FileNode)}
    (hlisting : tree.listing directory = .ok entries) : ∀ entry ∈ entries, Speakable entry.1 := by
  obtain ⟨-, hlisting⟩ := FileTree.guard_eq_ok hlisting
  obtain ⟨at_, -, hlisting⟩ := bind_eq_ok hlisting
  split at hlisting
  · cases hlisting
  · cases hlisting
    rintro ⟨name, node⟩ hentry
    obtain ⟨name', hname, hnode⟩ := List.mem_filterMap.mp hentry
    obtain ⟨_, -, heq⟩ := Option.map_eq_some_iff.mp hnode
    obtain ⟨rfl, rfl⟩ := Prod.mk.inj heq
    obtain ⟨⟨l, node'⟩, hmem, hlast⟩ := List.mem_filterMap.mp (List.mem_mergeSort.mp hname)
    split at hlast
    · exact h.names _ hmem _ (List.mem_of_getLast? hlast)
    · cases hlast

theorem findDirectory?_speakable (h : Searchable settings tree) (hdirectory : directory.Speakable)
    {name : Text} (hfound : findDirectory? tree directory name = .ok (some found)) :
    found.Speakable := by
  obtain ⟨entries, hlisting, hfound⟩ := bind_eq_ok hfound
  obtain ⟨entry, hentry, rfl⟩ := Option.map_eq_some_iff.mp (Except.ok.inj hfound)
  exact hdirectory.child (speakable_of_listing h hlisting entry (List.mem_of_find?_eq_some hentry))

/-- Looking for an entry fails if the directory cannot be listed. -/
theorem bind_pure_eq_error {ε α β : Type} {x : Except ε α} {f : α → β} {e : ε}
    (h : (do return f (← x)) = Except.error e) : x = .error e := by
  cases x with
  | error e' =>
    cases h
    rfl
  | ok a => cases h

theorem isSystem_of_search (h : Searchable settings tree) (hdirectory : directory.Speakable)
    {stopped : Path} {e : FileError} (hsearch : search tree directory names = .error (stopped, e)) :
    e.isSystem = true := by
  fun_induction search tree directory names with
  | case2 directory e' herror | case4 directory name e' herror
  | case7 directory name rest hrest e' herror =>
    cases hsearch
    exact isSystem_of_listing hdirectory (bind_pure_eq_error herror)
  | case5 directory name rest hrest next hnext ih =>
    exact ih (findDirectory?_speakable h hdirectory hnext) hsearch
  | case1 | case3 | case6 => cases hsearch

/-- Where all can be given to the system, no search fails. -/
theorem toComponent_ne_error (h : Searchable settings tree) (path : Path) (e : FileError) :
    toComponent settings tree path ≠ .error e := by
  intro herror
  obtain ⟨hsystem, names, stopped, hsearch⟩ := toComponent_eq_error herror
  rw [isSystem_of_search h h.source hsearch] at hsystem
  cases hsystem

end GeneratedFile

end SfcProxy
