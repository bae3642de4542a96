import SfcProxy.Proofs.GeneratedFile
import SfcProxy.Proofs.Listing

/-!
# From a generated file back to its component

The path of a generated file forgets the case of all names, and the search for the component has to
find it again. In each directory the search follows the first of the directories that come in
question, and never comes back to try another. So what it finds is right, and it finds what is there
as long as each directory on the way comes first among those of the same lower-case name.

## Main definitions

* `FileTree.HasComponent`: a component stands below a location
* `FileTree.FirstOfCase`: each directory on the way is the first of its lower-case name
* `FileTree.Finds`: the entries that a search comes by

## Main results

* `GeneratedFile.search_sound`, `GeneratedFile.search_complete`, `GeneratedFile.search_answers`: a
  search comes by the entries that `FileTree.Finds` gives
* `FileTree.exists_finds_iff`: when there are such entries
* `GeneratedFile.toComponent_sound`: what is found has the generated file, up to case
* `GeneratedFile.toComponent_isSome_iff`: when something is found
* `GeneratedFile.toComponent_ofComponent`: the way there and back
-/

namespace SfcProxy

open GeneratedFile (isComponentName nameOf)

/-! ## Components in a tree -/

namespace FileTree

variable {tree : FileTree} {at_ : Location} {dirs targets entries : List Text} {name : Text}

/-- A file called like a component stands below a location, in a directory that is reached along
directories. -/
structure HasComponent (tree : FileTree) (at_ : Location) (dirs : List Text) (name : Text) :
    Prop where
  directories : tree.DirectoriesAlong at_ dirs
  file : ∃ bytes executable, tree.node? (at_ ++ dirs ++ [name]) = some (.file bytes executable)
  component : isComponentName name = true

theorem HasComponent.isDirectory (h : tree.HasComponent at_ dirs name) :
    tree.isDirectory at_ = true := by
  have hat := h.directories [] (List.nil_prefix)
  rwa [List.append_nil] at hat

theorem HasComponent.not_mem_dirs (h : tree.HasComponent at_ dirs name) (hproper : tree.Proper) :
    Text.ofString ".." ∉ dirs ++ [name] := by
  obtain ⟨bytes, executable, hfile⟩ := h.file
  have hnot := hproper.not_mem (Option.isSome_iff_exists.mpr ⟨_, hfile⟩)
  rw [List.append_assoc, List.mem_append, not_or] at hnot
  exact hnot.2

theorem hasComponent_cons_iff {d : Text} : tree.HasComponent at_ (d :: dirs) name ↔
    tree.isDirectory at_ = true ∧ tree.HasComponent (at_ ++ [d]) dirs name := by
  have happend : at_ ++ d :: dirs ++ [name] = at_ ++ [d] ++ dirs ++ [name] := by simp
  constructor
  · rintro ⟨hdirectories, hfile, hcomponent⟩
    rw [directoriesAlong_cons_iff] at hdirectories
    rw [happend] at hfile
    exact ⟨hdirectories.1, hdirectories.2, hfile, hcomponent⟩
  · rintro ⟨hat, hdirectories, hfile, hcomponent⟩
    rw [← happend] at hfile
    exact ⟨directoriesAlong_cons_iff.mpr ⟨hat, hdirectories⟩, hfile, hcomponent⟩

/-! ## Which entries come in question -/

/-- The entry is a directory of this lower-case name. -/
def IsDirectoryOf (target entry : Text) (node : FileNode) : Prop :=
  node = .directory ∧ entry.lower = target

/-- The entry is a component whose generated file has this name. -/
def IsComponentOf (target entry : Text) (node : FileNode) : Prop :=
  node ≠ .directory ∧ isComponentName entry = true ∧ nameOf entry = target

theorem IsFirst.isDirectory {target entry : Text}
    (h : tree.IsFirst at_ (IsDirectoryOf target) entry) :
    tree.isDirectory (at_ ++ [entry]) = true := by
  obtain ⟨node, hnode, rfl, -⟩ := h.passes
  exact decide_eq_true hnode

theorem HasComponent.passes (h : tree.HasComponent at_ dirs name) : ∃ node,
    tree.node? (at_ ++ dirs ++ [name]) = some node ∧ IsComponentOf (nameOf name) name node := by
  obtain ⟨bytes, executable, hfile⟩ := h.file
  exact ⟨_, hfile, FileNode.noConfusion, h.component, rfl⟩

/-- Each directory on the way comes first among those of the same lower-case name. -/
def FirstOfCase (tree : FileTree) (at_ : Location) (dirs : List Text) : Prop :=
  ∀ front d rest, dirs = front ++ d :: rest →
    tree.IsFirst (at_ ++ front) (IsDirectoryOf d.lower) d

theorem firstOfCase_nil : tree.FirstOfCase at_ [] := by
  intro front d rest h
  exact absurd h.symm (List.append_ne_nil_of_right_ne_nil front (List.cons_ne_nil d rest))

theorem firstOfCase_cons_iff {d : Text} : tree.FirstOfCase at_ (d :: dirs) ↔
    tree.IsFirst at_ (IsDirectoryOf d.lower) d ∧ tree.FirstOfCase (at_ ++ [d]) dirs := by
  constructor
  · intro h
    refine ⟨by simpa using h [] d dirs rfl, fun front d' rest heq => ?_⟩
    simpa using h (d :: front) d' rest (by rw [heq, List.cons_append])
  · rintro ⟨hfirst, h⟩ front d' rest heq
    rcases List.cons_eq_append_iff.mp heq with ⟨rfl, hcons⟩ | ⟨front, rfl, rfl⟩
    · obtain ⟨rfl, rfl⟩ := List.cons.inj hcons
      rwa [List.append_nil]
    · simpa using h front d' rest rfl

/-- The entries that a search comes by when it looks for lower-case names: in each directory the
first that comes in question. -/
inductive Finds (tree : FileTree) : Location → List Text → List Text → Prop
  | component {at_ : Location} {target entry : Text}
      (first : tree.IsFirst at_ (IsComponentOf target) entry) : Finds tree at_ [target] [entry]
  | directory {at_ : Location} {target entry : Text} {targets entries : List Text}
      (first : tree.IsFirst at_ (IsDirectoryOf target) entry)
      (rest : Finds tree (at_ ++ [entry]) targets entries) :
      Finds tree at_ (target :: targets) (entry :: entries)

theorem Finds.ne_nil (h : tree.Finds at_ targets entries) : entries ≠ [] := by
  cases h <;> exact List.cons_ne_nil _ _

/-- What a search comes by is a component with directories above it, each the first that comes in
question. -/
theorem Finds.spec (h : tree.Finds at_ targets entries) (hat : tree.isDirectory at_ = true) :
    ∃ dirs name, entries = dirs ++ [name] ∧ targets = dirs.map Text.lower ++ [nameOf name] ∧
      tree.HasComponent at_ dirs name ∧ tree.FirstOfCase at_ dirs := by
  induction h with
  | @component at_ target entry first =>
    obtain ⟨node, hnode, hfile, hcomponent, rfl⟩ := first.passes
    refine ⟨[], entry, rfl, rfl, ⟨directoriesAlong_nil_iff.mpr hat, ?_, hcomponent⟩,
      firstOfCase_nil⟩
    rw [List.append_nil]
    cases node with
    | directory => exact absurd rfl hfile
    | file bytes executable => exact ⟨bytes, executable, hnode⟩
  | @directory at_ target entry targets entries first rest ih =>
    obtain ⟨node, -, -, rfl⟩ := first.passes
    obtain ⟨dirs, name, rfl, rfl, hcomponent, hfirst⟩ := ih first.isDirectory
    exact ⟨entry :: dirs, name, rfl, rfl, hasComponent_cons_iff.mpr ⟨hat, hcomponent⟩,
      firstOfCase_cons_iff.mpr ⟨first, hfirst⟩⟩

theorem FirstOfCase.finds (h : tree.FirstOfCase at_ dirs)
    (hname : tree.IsFirst (at_ ++ dirs) (IsComponentOf (nameOf name)) name) :
    tree.Finds at_ (dirs.map Text.lower ++ [nameOf name]) (dirs ++ [name]) := by
  induction dirs generalizing at_ with
  | nil =>
    rw [List.append_nil] at hname
    exact .component hname
  | cons d dirs ih =>
    obtain ⟨hfirst, hrest⟩ := firstOfCase_cons_iff.mp h
    exact .directory hfirst (ih hrest (by simpa using hname))

/-- Where all directories can be listed, a search comes by something if a component is there, with
directories above it that each come first of their lower-case name. -/
theorem exists_finds_iff {root : Path} (hlegible : tree.Legible root at_) (hproper : tree.Proper)
    (hat : tree.isDirectory at_ = true) : (∃ entries, tree.Finds at_ targets entries) ↔
      ∃ dirs name, tree.HasComponent at_ dirs name ∧
        targets = dirs.map Text.lower ++ [nameOf name] ∧ tree.FirstOfCase at_ dirs := by
  constructor
  · rintro ⟨entries, hfinds⟩
    obtain ⟨dirs, name, -, htargets, hcomponent, hfirst⟩ := hfinds.spec hat
    exact ⟨dirs, name, hcomponent, htargets, hfirst⟩
  · rintro ⟨dirs, name, hcomponent, rfl, hfirst⟩
    -- another component may come before this one, with the same generated name
    obtain ⟨listed, hlisting⟩ := hlegible.listed dirs hcomponent.directories
    obtain ⟨node, hnode, htest⟩ := hcomponent.passes
    obtain ⟨first, hname⟩ := exists_isFirst hlisting
      (hlegible.locate_below hproper hcomponent.directories) hnode htest
    obtain ⟨node, -, -, -, heq⟩ := hname.passes
    rw [← heq] at hname ⊢
    exact ⟨dirs ++ [first], hfirst.finds hname⟩

/-- Directories are the first of their lower-case name if they are the only ones. -/
theorem FirstOfCase.of_only (hdirectories : tree.DirectoriesAlong at_ dirs)
    (honly : ∀ front d rest, dirs = front ++ d :: rest → ∀ other,
      tree.isDirectory (at_ ++ front ++ [other]) = true → other.lower = d.lower → other = d) :
    tree.FirstOfCase at_ dirs := by
  rintro front d rest rfl
  have hprefix : front ++ [d] <+: front ++ d :: rest := ⟨rest, by simp⟩
  have hdirectory := hdirectories _ hprefix
  rw [← List.append_assoc] at hdirectory
  refine .of_only (of_decide_eq_true hdirectory) ⟨rfl, rfl⟩ fun other node hnode hother => ?_
  obtain ⟨rfl, hlower⟩ := hother
  exact honly front d rest rfl other (decide_eq_true hnode) hlower

/-- A component is the first of its generated name if it is the only one. -/
theorem HasComponent.isFirst_of_only (h : tree.HasComponent at_ dirs name)
    (honly : ∀ other, tree.HasComponent at_ dirs other → nameOf other = nameOf name →
      other = name) : tree.IsFirst (at_ ++ dirs) (IsComponentOf (nameOf name)) name := by
  obtain ⟨node, hnode, htest⟩ := h.passes
  refine .of_only hnode htest fun other node hnode hother => ?_
  obtain ⟨hnot, hcomponent, hname⟩ := hother
  cases node with
  | directory => exact absurd rfl hnot
  | file bytes' executable' =>
    exact honly other ⟨h.directories, ⟨bytes', executable', hnode⟩, hcomponent⟩ hname

end FileTree

/-! ## The search -/

namespace GeneratedFile

open FileTree (IsDirectoryOf IsComponentOf)

variable {settings : Settings} {tree : FileTree} {directory path : Path} {at_ : Location}
variable {names targets entries : List Text}

/-- A search goes on in the first directory of the name. -/
theorem looksFor_directory (tree : FileTree) (directory : Path) (name : Text) :
    tree.LooksFor directory (IsDirectoryOf name.lower) (findDirectory? tree directory name) :=
  ⟨_, by simp [IsDirectoryOf], rfl⟩

/-- A search ends at the first component of the name. -/
theorem looksFor_component (tree : FileTree) (directory : Path) (name : Text) :
    tree.LooksFor directory (IsComponentOf name.lower) (findComponent? tree directory name) :=
  ⟨_, by simp [IsComponentOf, and_assoc], rfl⟩

/-! ### One step -/

section Step

variable {name next : Text} {rest : List Text} {found : Option Path}

theorem search_nil_iff : search tree directory [] = .ok found ↔
    findComponent? tree directory [] = .ok found := by
  rw [search]
  cases findComponent? tree directory [] <;> simp

theorem search_singleton_iff : search tree directory [name] = .ok found ↔
    findComponent? tree directory name = .ok found := by
  rw [search]
  cases findComponent? tree directory name <;> simp

/-- A search goes on in a directory of the first name, or ends if there is none. -/
theorem search_cons_cons_iff : search tree directory (name :: next :: rest) = .ok found ↔
    findDirectory? tree directory name = .ok none ∧ found = none ∨
      ∃ below, findDirectory? tree directory name = .ok (some below) ∧
        search tree below (next :: rest) = .ok found := by
  rw [search]
  · rcases findDirectory? tree directory name with e | (_ | below) <;> simp [eq_comm]
  · exact List.cons_ne_nil next rest

end Step

/-- No generated file is without a name. -/
theorem not_isComponentOf_nil (entry : Text) (node : FileNode) :
    ¬ IsComponentOf (Text.lower []) entry node := by
  rintro ⟨-, -, hname⟩
  have hends := suffix_nameOf entry
  rw [hname] at hends
  exact absurd hends (by decide)

/-- A search that does not fail begins at a directory that is there. -/
theorem locate_of_search {found : Option Path} (h : search tree directory names = .ok found) :
    ∃ at_, tree.locate directory = .ok at_ ∧ tree.isDirectory at_ = true := by
  rcases names with _ | ⟨name, _ | ⟨next, rest⟩⟩
  · exact (looksFor_component ..).locate (search_nil_iff.mp h)
  · exact (looksFor_component ..).locate (search_singleton_iff.mp h)
  · rcases search_cons_cons_iff.mp h with ⟨hnone, -⟩ | ⟨below, hbelow, -⟩
    · exact (looksFor_directory ..).locate hnone
    · exact (looksFor_directory ..).locate hbelow

/-! ### All steps -/

/-- What a search finds are the entries it comes by, in a directory that its path leads to. -/
theorem search_sound (hproper : tree.Proper) (hlocate : tree.locate directory = .ok at_)
    {found : Path} (h : search tree directory names = .ok (some found)) :
    ∃ entries, found = directory.below entries ∧
      tree.Finds at_ (names.map Text.lower) entries ∧
        tree.locate found.parent = .ok (at_ ++ entries.dropLast) := by
  induction names generalizing directory at_ with
  | nil =>
    rw [search_nil_iff] at h
    obtain ⟨entry, -, hfirst⟩ := (looksFor_component ..).first hlocate h
    obtain ⟨node, -, hcomponent⟩ := hfirst.passes
    exact absurd hcomponent (not_isComponentOf_nil entry node)
  | cons name rest ih =>
    cases rest with
    | nil =>
      rw [search_singleton_iff] at h
      obtain ⟨entry, rfl, hfirst⟩ := (looksFor_component ..).first hlocate h
      exact ⟨[entry], rfl, .component hfirst, by simpa using hlocate⟩
    | cons next rest =>
      rcases search_cons_cons_iff.mp h with ⟨-, hnone⟩ | ⟨below, hbelow, h⟩
      · cases hnone
      · obtain ⟨entry, rfl, hfirst⟩ := (looksFor_directory ..).first hlocate hbelow
        obtain ⟨l, hl, -⟩ := locate_of_search h
        obtain rfl := FileTree.locate_child (hproper.ne_up hfirst.isSome) hlocate hl
        obtain ⟨entries, rfl, hfinds, hparent⟩ := ih hl h
        refine ⟨entry :: entries, Path.below_child directory entry entries,
          .directory hfirst hfinds, ?_⟩
        rw [hparent, List.dropLast_cons_of_ne_nil hfinds.ne_nil, ← List.append_cons]

/-- Where all directories can be listed, a search finds the entries it comes by. -/
theorem search_complete (hproper : tree.Proper) (h : tree.Finds at_ targets entries)
    (hlegible : tree.Legible directory at_) (hat : tree.isDirectory at_ = true)
    (hnames : names.map Text.lower = targets) :
    search tree directory names = .ok (some (directory.below entries)) := by
  induction h generalizing directory names with
  | @component at_ target entry first =>
    obtain ⟨name, rfl, rfl⟩ := List.map_eq_singleton_iff.mp hnames
    exact search_singleton_iff.mpr ((looksFor_component ..).of_first hlegible hat first)
  | @directory at_ target entry targets entries first rest ih =>
    obtain ⟨name, names, rfl, rfl, hrest⟩ := List.map_eq_cons_iff.mp hnames
    have hchild := hlegible.child hat (hproper.ne_up first.isSome) first.isDirectory
    cases names with
    | nil =>
      cases hrest
      cases rest
    | cons next names =>
      refine search_cons_cons_iff.mpr
        (.inr ⟨_, (looksFor_directory ..).of_first hlegible hat first, ?_⟩)
      rw [ih hchild first.isDirectory hrest, Path.below_child]

/-- Where all directories can be listed, no search fails. -/
theorem search_answers (hproper : tree.Proper) (hlegible : tree.Legible directory at_)
    (hat : tree.isDirectory at_ = true) (names : List Text) :
    ∃ found, search tree directory names = .ok found := by
  induction names generalizing directory at_ with
  | nil =>
    exact ((looksFor_component ..).answers hlegible hat).imp fun _ => search_nil_iff.mpr
  | cons name rest ih =>
    cases rest with
    | nil =>
      exact ((looksFor_component ..).answers hlegible hat).imp fun _ => search_singleton_iff.mpr
    | cons next rest =>
      obtain ⟨found, hfound⟩ := (looksFor_directory tree directory name).answers hlegible hat
      cases found with
      | none => exact ⟨none, search_cons_cons_iff.mpr (.inl ⟨hfound, rfl⟩)⟩
      | some below =>
        obtain ⟨entry, rfl, hfirst⟩ := (looksFor_directory ..).first hlegible.located hfound
        have hchild := hlegible.child hat (hproper.ne_up hfirst.isSome) hfirst.isDirectory
        obtain ⟨found, h⟩ := ih hchild hfirst.isDirectory
        exact ⟨found, search_cons_cons_iff.mpr (.inr ⟨_, hfound, h⟩)⟩

/-! ## There and back -/

/-- Only the way up is the way up in lower case. -/
theorem eq_up_of_lower {t : Text} (h : t.lower = Text.ofString "..") : t = Text.ofString ".." := by
  have hsmall : ∀ u ∈ t.lower, u.codePoint ≤ 0x60 := by
    rw [h]
    decide
  rw [← Text.lower_eq_self_of_small hsmall, h]

theorem ofComponent?_below {dirs : List Text} (hdirs : Text.ofString ".." ∉ dirs) (name : Text) :
    ofComponent? settings (settings.sourcePath.below (dirs ++ [name])) =
      some (settings.generatedPath.below (dirs.map Text.lower ++ [nameOf name])) := by
  have hup : (dirs.map Text.lower).contains (Text.ofString "..") = false := by
    rw [List.contains_eq_mem, decide_eq_false_iff_not]
    intro hmem
    obtain ⟨d, hd, hlower⟩ := List.mem_map.mp hmem
    exact hdirs (eq_up_of_lower hlower ▸ hd)
  unfold ofComponent?
  rw [Path.parent_below, Path.relativeTo?_eq_some_iff.mpr rfl, Path.name_below]
  dsimp only
  rw [hup, if_neg Bool.false_ne_true, Path.below, List.append_assoc]

theorem lower_names (dirs : List Text) (name : Text) :
    (dirs.map Text.lower ++ [nameOf name]).map Text.lower =
      dirs.map Text.lower ++ [nameOf name] := by
  simp [nameOf, Text.lower_lower]

theorem toComponent_of_search {found : Option Path}
    (h : search tree settings.sourcePath names = .ok found) :
    toComponent settings tree (settings.generatedPath.below names) = .ok (found, []) := by
  rw [toComponent, Path.relativeTo?_eq_some_iff.mpr rfl]
  dsimp only
  rw [h]

/-- The path is that of a component below the source directory. -/
structure IsComponent (settings : Settings) (tree : FileTree) (path : Path) (at_ : Location)
    (dirs : List Text) (name : Text) : Prop where
  source : tree.locate settings.sourcePath = .ok at_
  below_source : path = settings.sourcePath.below (dirs ++ [name])
  never_up : Text.ofString ".." ∉ dirs ++ [name]
  parent : tree.locate path.parent = .ok (at_ ++ dirs)
  component : tree.HasComponent at_ dirs name

/-- Settings with the source directory at the root. -/
def atRoot : Settings :=
  ⟨⟨.root, []⟩, "src", "gen", "gleam", "gleam", 8⟩

/-- A tree with a component and a directory above it in capitals. -/
def capitals : FileTree :=
  ⟨[], [(["src"], .directory), (["src", "Forms"], .directory),
    (["src", "Forms", "Input.vue"], .file [] false)]⟩

theorem proper_capitals : capitals.Proper := by
  unfold FileTree.Proper
  decide

theorem legible_capitals : capitals.Legible atRoot.sourcePath ["src"] :=
  .of_nodes (by decide +kernel) (by decide +kernel) (by decide +kernel)

theorem hasComponent_capitals : capitals.HasComponent ["src"] ["Forms"] "Input.vue" := by
  refine ⟨?_, ⟨[], false, by decide +kernel⟩, by decide +kernel⟩
  simp only [FileTree.directoriesAlong_cons_iff, FileTree.directoriesAlong_nil_iff]
  decide +kernel

/-- A tree with two directories of the same lower-case name, the first of which is empty. -/
def twoCases : FileTree :=
  ⟨[], [(["src"], .directory), (["src", "A"], .directory), (["src", "a"], .directory),
    (["src", "a", "x.vue"], .file [] false)]⟩

theorem proper_twoCases : twoCases.Proper := by
  unfold FileTree.Proper
  decide

theorem legible_twoCases : twoCases.Legible atRoot.sourcePath ["src"] :=
  .of_nodes (by decide +kernel) (by decide +kernel) (by decide +kernel)

theorem hasComponent_twoCases : twoCases.HasComponent ["src"] ["a"] "x.vue" := by
  refine ⟨?_, ⟨[], false, by decide +kernel⟩, by decide +kernel⟩
  simp only [FileTree.directoriesAlong_cons_iff, FileTree.directoriesAlong_nil_iff]
  decide +kernel

/-- **What is found is a component.** It stands below the source directory, and its generated file
has the path in question, in lower case. -/
theorem toComponent_sound (hproper : tree.Proper) {found : Path} {log : Log}
    (h : toComponent settings tree path = .ok (some found, log)) :
    ∃ at_ dirs name names, IsComponent settings tree found at_ dirs name ∧
      path = settings.generatedPath.below names ∧
        ofComponent? settings found = some (settings.generatedPath.below (names.map Text.lower)) ∧
          ((∀ part ∈ names, part.lower = part) → ofComponent? settings found = some path) := by
  obtain ⟨names, hnames, hsearch, rfl⟩ := toComponent_eq_found h
  rw [Path.relativeTo?_eq_some_iff] at hnames
  obtain ⟨at_, hlocate, hat⟩ := locate_of_search hsearch
  obtain ⟨entries, rfl, hfinds, hparent⟩ := search_sound hproper hlocate hsearch
  obtain ⟨dirs, name, rfl, htargets, hcomponent, -⟩ := hfinds.spec hat
  have hup := hcomponent.not_mem_dirs hproper
  rw [List.dropLast_concat] at hparent
  have hgenerated : ofComponent? settings (settings.sourcePath.below (dirs ++ [name])) = _ :=
    ofComponent?_below (fun hmem => hup (List.mem_append_left [name] hmem)) name
  rw [← htargets] at hgenerated
  refine ⟨at_, dirs, name, names, ⟨hlocate, rfl, hup, hparent, hcomponent⟩, hnames, hgenerated,
    fun hlower => ?_⟩
  rw [hgenerated, List.map_congr_left hlower, List.map_id', hnames]

/-- The capitals of a component and of the directory above it are found again. -/
theorem toComponent_sound_capitals :
    ∃ path found, toComponent atRoot capitals path = .ok (some found, []) ∧
      ∃ at_ dirs name names, IsComponent atRoot capitals found at_ dirs name ∧
        path = atRoot.generatedPath.below names ∧
          ofComponent? atRoot found = some (atRoot.generatedPath.below (names.map Text.lower)) ∧
            ((∀ part ∈ names, part.lower = part) → ofComponent? atRoot found = some path) := by
  have hfound : toComponent atRoot capitals ⟨.root, ["src", "gen", "forms", "input.gleam"]⟩
      = .ok (some ⟨.root, ["src", "Forms", "Input.vue"]⟩, []) := by
    decide +kernel
  exact ⟨_, _, hfound, toComponent_sound proper_capitals hfound⟩

/-- **When something is found** for the generated file of a component: there is a component with
this generated file in directories of which each comes first of its lower-case name. -/
theorem toComponent_isSome_iff (hproper : tree.Proper)
    (hlegible : tree.Legible settings.sourcePath at_) {dirs : List Text} {name : Text}
    (h : tree.HasComponent at_ dirs name) {generated : Path}
    (hgenerated : ofComponent? settings (settings.sourcePath.below (dirs ++ [name])) =
      some generated) :
    ∃ found, toComponent settings tree generated = .ok (found, []) ∧
      (found.isSome = true ↔ ∃ dirs' name', tree.HasComponent at_ dirs' name' ∧
        ofComponent? settings (settings.sourcePath.below (dirs' ++ [name'])) = some generated ∧
          tree.FirstOfCase at_ dirs') := by
  have hbelow : ∀ {dirs name}, tree.HasComponent at_ dirs name →
      ofComponent? settings (settings.sourcePath.below (dirs ++ [name])) =
        some (settings.generatedPath.below (dirs.map Text.lower ++ [nameOf name])) :=
    fun hcomponent => ofComponent?_below (fun hmem =>
      hcomponent.not_mem_dirs hproper (List.mem_append_left _ hmem)) _
  rw [hbelow h] at hgenerated
  obtain rfl := Option.some.inj hgenerated
  have hnames := lower_names dirs name
  generalize dirs.map Text.lower ++ [nameOf name] = names at hnames
  obtain ⟨found, hfound⟩ := search_answers hproper hlegible h.isDirectory names
  refine ⟨found, toComponent_of_search hfound, ?_⟩
  have hfinds : found.isSome = true ↔ ∃ entries, tree.Finds at_ names entries := by
    constructor
    · intro hsome
      obtain ⟨p, rfl⟩ := Option.isSome_iff_exists.mp hsome
      obtain ⟨entries, -, hfinds, -⟩ := search_sound hproper hlegible.located hfound
      exact ⟨entries, hnames ▸ hfinds⟩
    · rintro ⟨entries, hfinds⟩
      have hsearch := search_complete hproper hfinds hlegible h.isDirectory hnames
      rw [Except.ok.inj (hfound.symm.trans hsearch)]
      rfl
  rw [hfinds, FileTree.exists_finds_iff hlegible hproper h.isDirectory]
  refine exists_congr fun dirs' => exists_congr fun name' => and_congr_right fun hcomponent => ?_
  rw [hbelow hcomponent, Option.some_inj, Path.below_inj, eq_comm]

/-- Two directories that are the same but for case. -/
theorem toComponent_isSome_iff_twoCases :
    ∃ generated, ofComponent? atRoot (atRoot.sourcePath.below ["a", "x.vue"]) = some generated ∧
      ∃ found, toComponent atRoot twoCases generated = .ok (found, []) ∧
        (found.isSome = true ↔ ∃ dirs name, twoCases.HasComponent ["src"] dirs name ∧
          ofComponent? atRoot (atRoot.sourcePath.below (dirs ++ [name])) = some generated ∧
            twoCases.FirstOfCase ["src"] dirs) := by
  have hgenerated : ofComponent? atRoot (atRoot.sourcePath.below ["a", "x.vue"])
      = some ⟨.root, ["src", "gen", "a", "x.gleam"]⟩ := by
    decide +kernel
  exact ⟨_, hgenerated, toComponent_isSome_iff proper_twoCases legible_twoCases
    hasComponent_twoCases hgenerated⟩

/-- Nothing is found for a component in a directory that comes after an empty one of the same
lower-case name. -/
theorem component_missed :
    twoCases.Proper ∧ twoCases.Legible atRoot.sourcePath ["src"] ∧
      twoCases.HasComponent ["src"] ["a"] "x.vue" ∧
        ∃ generated,
          ofComponent? atRoot (atRoot.sourcePath.below ["a", "x.vue"]) = some generated ∧
            toComponent atRoot twoCases generated = .ok (none, []) := by
  have hfirst : twoCases.IsFirst ["src"] (IsDirectoryOf (Text.lower "a")) "A" := by
    refine ⟨⟨.directory, by decide +kernel, rfl, by decide +kernel⟩, fun other node hnode _ => ?_⟩
    have hentry := FileTree.exists_of_node? (List.cons_ne_nil _ _) hnode
    obtain ⟨rfl | rfl, -⟩ : (other = "A" ∨ other = "a") ∧ node = .directory := by
      simpa [twoCases, ← or_and_right] using hentry
    all_goals decide +kernel
  have hfound := (looksFor_directory ..).of_first legible_twoCases
    hasComponent_twoCases.isDirectory hfirst
  have hmissed : findComponent? twoCases (atRoot.sourcePath.child "A") "x.gleam" = .ok none := by
    decide +kernel
  exact ⟨proper_twoCases, legible_twoCases, hasComponent_twoCases,
    atRoot.generatedPath.below ["a", "x.gleam"], by decide +kernel,
    toComponent_of_search (search_cons_cons_iff.mpr
      (.inr ⟨_, hfound, search_singleton_iff.mpr hmissed⟩))⟩

/-- **There and back.** A component is found again where no other name on the way is the same but
for case. -/
theorem toComponent_ofComponent (hproper : tree.Proper)
    (hlegible : tree.Legible settings.sourcePath at_) {dirs : List Text} {name : Text}
    (h : tree.HasComponent at_ dirs name)
    (hdirs : ∀ front d rest, dirs = front ++ d :: rest → ∀ other,
      tree.isDirectory (at_ ++ front ++ [other]) = true → other.lower = d.lower → other = d)
    (hname : ∀ other, tree.HasComponent at_ dirs other → nameOf other = nameOf name →
      other = name) :
    ∃ generated,
      ofComponent? settings (settings.sourcePath.below (dirs ++ [name])) = some generated ∧
        toComponent settings tree generated =
          .ok (some (settings.sourcePath.below (dirs ++ [name])), []) := by
  have hup : Text.ofString ".." ∉ dirs :=
    fun hmem => h.not_mem_dirs hproper (List.mem_append_left _ hmem)
  have hfirst := FileTree.FirstOfCase.of_only h.directories hdirs
  have hfinds := hfirst.finds (h.isFirst_of_only hname)
  exact ⟨_, ofComponent?_below hup name, toComponent_of_search
    (search_complete hproper hfinds hlegible h.isDirectory (lower_names dirs name))⟩

/-- The only component of a tree is found again. -/
theorem toComponent_ofComponent_capitals :
    ∃ generated,
      ofComponent? atRoot (atRoot.sourcePath.below ["Forms", "Input.vue"]) = some generated ∧
        toComponent atRoot capitals generated =
          .ok (some (atRoot.sourcePath.below ["Forms", "Input.vue"]), []) := by
  refine toComponent_ofComponent proper_capitals legible_capitals hasComponent_capitals ?_ ?_
  · intro front d rest heq other hother _
    obtain ⟨rfl, rfl, rfl⟩ : front = [] ∧ d = "Forms" ∧ rest = [] := by
      simpa [List.cons_eq_append_iff] using heq
    have hentry := FileTree.exists_of_node? (List.cons_ne_nil _ _) (of_decide_eq_true hother)
    simpa [capitals] using hentry
  · intro other hother _
    obtain ⟨bytes, executable, hfile⟩ := hother.file
    have hentry := FileTree.exists_of_node? (List.cons_ne_nil _ _) hfile
    obtain ⟨hname, -⟩ : other = "Input.vue" ∧ bytes = [] ∧ executable = false := by
      simpa [capitals] using hentry
    exact hname

end GeneratedFile

end SfcProxy
