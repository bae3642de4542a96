import SfcProxy.Proofs.FileTree
import SfcProxy.Proofs.FileUri
import SfcProxy.Proofs.LowerCase

/-!
# What a directory lists

A directory that can be listed gives the names below it with what stands there, in the order of
their code points. So the first entry that passes a test is the one whose name comes before those of
all others that pass it. Where all directories below a path can be listed, so can those below each
of its directories.

## Main definitions

* `FileTree.IsFirst`: a name comes before all others in a directory that pass a test
* `FileTree.DirectoriesAlong`: names lead down from directory to directory
* `FileTree.Legible`: all directories below a path can be listed

## Main results

* `FileTree.mem_listing_iff`, `FileTree.pairwise_listing`: what is listed, and in which order
* `FileTree.find?_listing`: the first entry that passes a test
* `FileTree.Legible.child`, `FileTree.Legible.of_nodes`: what can be listed
-/

namespace SfcProxy

/-! ## The order by code points -/

namespace Text

theorem leNats_total (as bs : List Nat) : leNats as bs = true ∨ leNats bs as = true := by
  induction as generalizing bs with
  | nil => exact .inl rfl
  | cons a as ih =>
    cases bs with
    | nil => exact .inr rfl
    | cons b bs =>
      simp only [leNats, Bool.or_eq_true, Bool.and_eq_true, decide_eq_true_eq, beq_iff_eq]
      rcases Nat.lt_trichotomy a b with hlt | heq | hgt
      · exact .inl (.inl hlt)
      · exact (ih bs).imp (fun h => .inr ⟨heq, h⟩) fun h => .inr ⟨heq.symm, h⟩
      · exact .inr (.inl hgt)

theorem leNats_trans {as bs cs : List Nat} (h : leNats as bs = true) (h' : leNats bs cs = true) :
    leNats as cs = true := by
  induction as generalizing bs cs with
  | nil => rfl
  | cons a as ih =>
    cases bs with
    | nil => cases h
    | cons b bs =>
      cases cs with
      | nil => cases h'
      | cons c cs =>
        simp only [leNats, Bool.or_eq_true, Bool.and_eq_true, decide_eq_true_eq, beq_iff_eq]
          at h h' ⊢
        rcases h with hlt | ⟨rfl, h⟩
        · rcases h' with hlt' | ⟨rfl, -⟩
          · exact .inl (hlt.trans hlt')
          · exact .inl hlt
        · exact h'.imp id fun h' => ⟨h'.1, ih h h'.2⟩

theorem leNats_antisymm {as bs : List Nat} (h : leNats as bs = true) (h' : leNats bs as = true) :
    as = bs := by
  induction as generalizing bs with
  | nil =>
    cases bs with
    | nil => rfl
    | cons b bs => cases h'
  | cons a as ih =>
    cases bs with
    | nil => cases h
    | cons b bs =>
      simp only [leNats, Bool.or_eq_true, Bool.and_eq_true, decide_eq_true_eq, beq_iff_eq] at h h'
      rcases h with hlt | ⟨rfl, h⟩
      · omega
      · rcases h' with hlt' | ⟨-, h'⟩
        · exact absurd hlt' (Nat.lt_irrefl a)
        · rw [ih h h']

theorem le_total (s t : Text) : (s.le t || t.le s) = true :=
  Bool.or_eq_true_iff.mpr (leNats_total s.codePoints t.codePoints)

theorem le_trans (s t u : Text) (h : s.le t = true) (h' : t.le u = true) : s.le u = true :=
  leNats_trans h h'

theorem le_refl (s : Text) : s.le s = true :=
  (leNats_total s.codePoints s.codePoints).elim id id

theorem le_antisymm {s t : Text} (h : s.le t = true) (h' : t.le s = true) : s = t :=
  List.map_injective_iff.mpr (fun _ _ => codePoint_inj) (leNats_antisymm h h')

end Text

/-! ## Paths further down -/

namespace Path

variable {p base : Path} {names : List Text}

/-- The path that leads further down along names. -/
def below (p : Path) (names : List Text) : Path :=
  ⟨p.anchor, p.parts ++ names⟩

@[simp] theorem below_nil (p : Path) : p.below [] = p := by
  rw [below, List.append_nil]

@[simp] theorem below_child (p : Path) (name : Text) (names : List Text) :
    (p.child name).below names = p.below (name :: names) := by
  rw [below, child, List.append_assoc, List.singleton_append, below]

@[simp] theorem parent_child (p : Path) (name : Text) : (p.child name).parent = p := by
  rw [parent, child, List.dropLast_concat]

theorem below_inj {names' : List Text} : p.below names = p.below names' ↔ names = names' := by
  simp [below]

@[simp] theorem parent_below (p : Path) (names : List Text) (name : Text) :
    (p.below (names ++ [name])).parent = p.below names := by
  rw [parent, below, ← List.append_assoc, List.dropLast_concat, below]

@[simp] theorem name_below (p : Path) (names : List Text) (name : Text) :
    (p.below (names ++ [name])).name = name := by
  rw [Path.name, below, ← List.append_assoc, List.getLastD_concat]

theorem relativeTo?_eq_some_iff : p.relativeTo? base = some names ↔ p = base.below names := by
  unfold relativeTo?
  constructor
  · intro h
    split at h
    · rename_i hbelow
      obtain ⟨hanchor, hprefix⟩ := hbelow
      obtain ⟨rest, hrest⟩ := List.isPrefixOf_iff_prefix.mp hprefix
      obtain rfl := Option.some.inj h
      rw [below, ← hanchor, ← hrest, List.drop_left, hrest]
    · cases h
  · rintro rfl
    have hprefix : base.parts.isPrefixOf (base.below names).parts = true :=
      List.isPrefixOf_iff_prefix.mpr (List.prefix_append base.parts names)
    rw [if_pos ⟨rfl, hprefix⟩, below, List.drop_left]

end Path

namespace FileTree

variable {tree : FileTree} {path : Path} {at_ : Location} {entries : List (Text × FileNode)}

/-! ## Names -/

theorem exists_of_node? {l : Location} (hl : l ≠ []) {node : FileNode}
    (h : tree.node? l = some node) : (l, node) ∈ tree.nodes := by
  rw [node?, if_neg hl] at h
  obtain ⟨entry, hfound, rfl⟩ := Option.map_eq_some_iff.mp h
  have heq := List.find?_some hfound
  rw [decide_eq_true_eq] at heq
  rw [← heq]
  exact List.mem_of_find?_eq_some hfound

theorem mem_names_iff {name : Text} :
    name ∈ tree.names at_ ↔ (tree.node? (at_ ++ [name])).isSome := by
  have hne : at_ ++ [name] ≠ [] := List.append_ne_nil_of_right_ne_nil _ (List.cons_ne_nil name [])
  constructor
  · intro h
    obtain ⟨entry, hentry, hname⟩ := List.mem_filterMap.mp h
    split at hname
    · rename_i habove
      have hlocation : entry.1 = at_ ++ [name] := by
        rw [← habove, List.dropLast_append_getLast? name hname]
      rw [node?, if_neg hne, Option.isSome_map, List.find?_isSome]
      exact ⟨entry, hentry, decide_eq_true hlocation⟩
    · cases hname
  · intro h
    obtain ⟨node, hnode⟩ := Option.isSome_iff_exists.mp h
    refine List.mem_filterMap.mpr ⟨_, exists_of_node? hne hnode, ?_⟩
    rw [if_pos (List.dropLast_concat ..), List.getLast?_concat]

/-! ## Listings -/

theorem listing_spec (h : tree.listing path = .ok entries) : ∃ at_, tree.locate path = .ok at_ ∧
    tree.isDirectory at_ = true ∧ entries = ((tree.names at_).mergeSort Text.le).filterMap
      fun name => (tree.node? (at_ ++ [name])).map fun node => (name, node) := by
  obtain ⟨-, h⟩ := guard_eq_ok h
  obtain ⟨at_, hlocate, h⟩ := bind_eq_ok h
  split at h
  · cases h
  · rename_i hdirectory
    rw [Bool.not_eq_true', Bool.not_eq_false] at hdirectory
    exact ⟨at_, hlocate, hdirectory, (Except.ok.inj h).symm⟩

/-- The names in a directory are listed with what stands there. -/
theorem mem_listing_iff (h : tree.listing path = .ok entries) (hlocate : tree.locate path = .ok at_)
    {name : Text} {node : FileNode} :
    (name, node) ∈ entries ↔ tree.node? (at_ ++ [name]) = some node := by
  obtain ⟨at_', hlocate', -, rfl⟩ := listing_spec h
  obtain rfl := Except.ok.inj (hlocate.symm.trans hlocate')
  constructor
  · intro hmem
    obtain ⟨name', -, hnode⟩ := List.mem_filterMap.mp hmem
    obtain ⟨node', hnode', heq⟩ := Option.map_eq_some_iff.mp hnode
    obtain ⟨rfl, rfl⟩ := Prod.mk.inj heq
    exact hnode'
  · intro hnode
    refine List.mem_filterMap.mpr ⟨name, List.mem_mergeSort.mpr (mem_names_iff.mpr ?_), ?_⟩
    · rw [hnode]
      rfl
    · rw [hnode]
      rfl

/-- Names are listed by code point. -/
theorem pairwise_listing (h : tree.listing path = .ok entries) :
    entries.Pairwise fun a b => Text.le a.1 b.1 = true := by
  obtain ⟨at_, -, -, rfl⟩ := listing_spec h
  have hsorted : ((tree.names at_).mergeSort Text.le).Pairwise fun a b => Text.le a b = true :=
    List.pairwise_mergeSort Text.le_trans Text.le_total _
  refine List.Pairwise.filterMap _ (fun a a' hle b hb b' hb' => ?_) hsorted
  obtain ⟨node, -, rfl⟩ := Option.map_eq_some_iff.mp hb
  obtain ⟨node', -, rfl⟩ := Option.map_eq_some_iff.mp hb'
  exact hle

/-! ## First entries -/

/-- The name comes before all others in a directory that pass a test, and passes it. -/
structure IsFirst (tree : FileTree) (at_ : Location) (test : Text → FileNode → Prop)
    (name : Text) : Prop where
  passes : ∃ node, tree.node? (at_ ++ [name]) = some node ∧ test name node
  le : ∀ other node, tree.node? (at_ ++ [other]) = some node → test other node →
    Text.le name other = true

variable {test : Text → FileNode → Prop}

theorem IsFirst.isSome {name : Text} (h : tree.IsFirst at_ test name) :
    (tree.node? (at_ ++ [name])).isSome := by
  obtain ⟨node, hnode, -⟩ := h.passes
  exact Option.isSome_of_mem hnode

theorem IsFirst.unique {name name' : Text} (h : tree.IsFirst at_ test name)
    (h' : tree.IsFirst at_ test name') : name = name' := by
  obtain ⟨node, hnode, htest⟩ := h.passes
  obtain ⟨node', hnode', htest'⟩ := h'.passes
  exact Text.le_antisymm (h.le name' node' hnode' htest') (h'.le name node hnode htest)

/-- A name with which all that pass the test agree is the first. -/
theorem IsFirst.of_only {name : Text} {node : FileNode}
    (hnode : tree.node? (at_ ++ [name]) = some node) (htest : test name node)
    (honly : ∀ other node, tree.node? (at_ ++ [other]) = some node → test other node →
      other = name) : tree.IsFirst at_ test name := by
  refine ⟨⟨node, hnode, htest⟩, fun other node' hnode' htest' => ?_⟩
  rw [honly other node' hnode' htest']
  exact Text.le_refl name

/-- What is found first in a listing comes first in the directory, and nothing is found only if
nothing in the directory passes. -/
theorem find?_listing (h : tree.listing path = .ok entries) (hlocate : tree.locate path = .ok at_)
    (check : Text × FileNode → Bool)
    (hcheck : ∀ name node, check (name, node) = true ↔ test name node) :
    (∃ name node, entries.find? check = some (name, node) ∧ tree.IsFirst at_ test name) ∨
      entries.find? check = none ∧
        ∀ name node, tree.node? (at_ ++ [name]) = some node → ¬ test name node := by
  cases hfound : entries.find? check with
  | none =>
    refine .inr ⟨rfl, fun name node hnode htest => ?_⟩
    exact List.find?_eq_none.mp hfound (name, node) ((mem_listing_iff h hlocate).mpr hnode)
      ((hcheck name node).mpr htest)
  | some entry =>
    obtain ⟨name, node⟩ := entry
    obtain ⟨hpasses, before, after, rfl, hbefore⟩ := List.find?_eq_some_iff_append.mp hfound
    have hnode := (mem_listing_iff h hlocate).mp (List.mem_append_right before List.mem_cons_self)
    refine .inl ⟨name, node, rfl, ⟨node, hnode, (hcheck name node).mp hpasses⟩, ?_⟩
    intro other node' hnode' htest
    rcases List.mem_append.mp ((mem_listing_iff h hlocate).mpr hnode') with hmem | hmem
    · have hfails := hbefore _ hmem
      rw [(hcheck other node').mpr htest] at hfails
      cases hfails
    · rcases List.mem_cons.mp hmem with heq | hmem
      · rw [(Prod.mk.inj heq).1]
        exact Text.le_refl name
      · have hpairs := (List.pairwise_append.mp (pairwise_listing h)).2.1
        exact (List.pairwise_cons.mp hpairs).1 _ hmem

/-- If something in a directory passes a test, something is the first to pass it. -/
theorem exists_isFirst (h : tree.listing path = .ok entries) (hlocate : tree.locate path = .ok at_)
    {name : Text} {node : FileNode} (hnode : tree.node? (at_ ++ [name]) = some node)
    (htest : test name node) : ∃ first, tree.IsFirst at_ test first := by
  classical
  rcases find?_listing h hlocate (fun entry => decide (test entry.1 entry.2))
    (fun _ _ => decide_eq_true_iff) with ⟨first, _, -, hfirst⟩ | ⟨-, hall⟩
  · exact ⟨first, hfirst⟩
  · exact absurd htest (hall name node hnode)

/-! ## Directories all the way -/

/-- No entry is called like the way up, as in every file system. -/
def Proper (tree : FileTree) : Prop :=
  ∀ entry ∈ tree.nodes, Text.ofString ".." ∉ entry.1

theorem Proper.not_mem (h : tree.Proper) {l : Location} (hsome : (tree.node? l).isSome) :
    Text.ofString ".." ∉ l := by
  by_cases hl : l = []
  · rw [hl]
    exact List.not_mem_nil
  · obtain ⟨node, hnode⟩ := Option.isSome_iff_exists.mp hsome
    exact h _ (exists_of_node? hl hnode)

/-- What stands in a directory does not lead up. -/
theorem Proper.ne_up (h : tree.Proper) {name : Text} (hsome : (tree.node? (at_ ++ [name])).isSome) :
    name ≠ Text.ofString ".." := by
  rintro rfl
  exact h.not_mem hsome (List.mem_append_right at_ (List.mem_singleton_self _))

/-- Names from a location down are those of directories, and so is the location itself. -/
def DirectoriesAlong (tree : FileTree) (at_ : Location) (names : List Text) : Prop :=
  ∀ front, front <+: names → tree.isDirectory (at_ ++ front) = true

theorem directoriesAlong_nil_iff : tree.DirectoriesAlong at_ [] ↔ tree.isDirectory at_ = true := by
  simp [DirectoriesAlong]

theorem directoriesAlong_cons_iff {name : Text} {names : List Text} :
    tree.DirectoriesAlong at_ (name :: names) ↔
      tree.isDirectory at_ = true ∧ tree.DirectoriesAlong (at_ ++ [name]) names := by
  simp only [DirectoriesAlong, List.prefix_cons_iff, List.append_assoc, List.singleton_append]
  constructor
  · intro h
    exact ⟨by simpa using h [] (.inl rfl), fun front hfront => h _ (.inr ⟨front, rfl, hfront⟩)⟩
  · rintro ⟨hat, h⟩ front (rfl | ⟨front, rfl, hfront⟩)
    · simpa using hat
    · exact h front hfront

/-- All directories that stand below a path at its location can be listed. -/
structure Legible (tree : FileTree) (root : Path) (at_ : Location) : Prop where
  located : tree.locate root = .ok at_
  listed : ∀ names, tree.DirectoriesAlong at_ names →
    ∃ entries, tree.listing (root.below names) = .ok entries

theorem Legible.listing (h : tree.Legible path at_) (hat : tree.isDirectory at_ = true) :
    ∃ entries, tree.listing path = .ok entries := by
  simpa using h.listed [] (directoriesAlong_nil_iff.mpr hat)

/-- The path one name further down leads one step further down. -/
theorem locate_child {l : Location} {name : Text} (hup : name ≠ Text.ofString "..")
    (h : tree.locate path = .ok at_) (h' : tree.locate (path.child name) = .ok l) :
    l = at_ ++ [name] := by
  have hwalk : tree.walk (tree.origin path) (path.parts ++ [name]) = .ok l := walk_of_locate h'
  rw [walk_append, walk_of_locate h] at hwalk
  refine walk_down ?_ hwalk
  rw [List.mem_singleton]
  exact hup.symm

theorem Legible.child (h : tree.Legible path at_) (hat : tree.isDirectory at_ = true) {name : Text}
    (hup : name ≠ Text.ofString "..") (hname : tree.isDirectory (at_ ++ [name]) = true) :
    tree.Legible (path.child name) (at_ ++ [name]) := by
  have hlisted : ∀ names, tree.DirectoriesAlong (at_ ++ [name]) names →
      ∃ entries, tree.listing ((path.child name).below names) = .ok entries := by
    intro names hnames
    rw [Path.below_child]
    exact h.listed _ (directoriesAlong_cons_iff.mpr ⟨hat, hnames⟩)
  refine ⟨?_, hlisted⟩
  obtain ⟨entries, hlisting⟩ := hlisted [] (directoriesAlong_nil_iff.mpr hname)
  rw [Path.below_nil] at hlisting
  obtain ⟨l, hlocate, -⟩ := listing_spec hlisting
  rw [hlocate, locate_child hup h.located hlocate]

/-- Directories along the way lead to where they stand. -/
theorem Legible.locate_below (h : tree.Legible path at_) (hproper : tree.Proper)
    {names : List Text} (hnames : tree.DirectoriesAlong at_ names) :
    tree.locate (path.below names) = .ok (at_ ++ names) := by
  obtain ⟨entries, hlisting⟩ := h.listed names hnames
  obtain ⟨l, hlocate, -⟩ := listing_spec hlisting
  have hwalk : tree.walk (tree.origin path) (path.parts ++ names) = .ok l :=
    walk_of_locate hlocate
  rw [walk_append, walk_of_locate h.located] at hwalk
  have hdirectory := of_decide_eq_true (hnames names (List.prefix_refl names))
  have hup := hproper.not_mem (Option.isSome_of_mem hdirectory)
  rw [hlocate, walk_down (fun hmem => hup (List.mem_append_right at_ hmem)) hwalk]

/-- It is enough to look at the directories there are. -/
theorem Legible.of_nodes (hlocated : tree.locate path = .ok at_)
    (hroot : (tree.listing path).isOk = true)
    (hnodes : ∀ entry ∈ tree.nodes, at_ <+: entry.1 → entry.2 = .directory →
      (tree.listing (path.below (entry.1.drop at_.length))).isOk = true) :
    tree.Legible path at_ := by
  have hok : ∀ {names}, (tree.listing (path.below names)).isOk = true →
      ∃ entries, tree.listing (path.below names) = .ok entries := by
    intro names h
    cases hlisting : tree.listing (path.below names) with
    | error e =>
      rw [hlisting] at h
      cases h
    | ok entries => exact ⟨entries, rfl⟩
  refine ⟨hlocated, fun names hnames => hok ?_⟩
  by_cases hempty : names = []
  · rwa [hempty, Path.below_nil]
  · have hdirectory := of_decide_eq_true (hnames names (List.prefix_refl names))
    have hentry := exists_of_node? (List.append_ne_nil_of_right_ne_nil at_ hempty) hdirectory
    have hlisting := hnodes _ hentry (List.prefix_append at_ names) rfl
    rwa [List.drop_left] at hlisting

/-! ## Looking for an entry -/

/-- The outcome of looking for the first entry of a directory that passes a test. -/
def LooksFor (tree : FileTree) (path : Path) (test : Text → FileNode → Prop)
    (outcome : Except FileError (Option Path)) : Prop :=
  ∃ check : Text × FileNode → Bool, (∀ name node, check (name, node) = true ↔ test name node) ∧
    outcome = do return ((← tree.listing path).find? check).map fun entry => path.child entry.1

variable {outcome : Except FileError (Option Path)} {found : Option Path}

/-- What is looked through is a directory. -/
theorem LooksFor.locate (h : tree.LooksFor path test outcome) (hfound : outcome = .ok found) :
    ∃ at_, tree.locate path = .ok at_ ∧ tree.isDirectory at_ = true := by
  obtain ⟨check, -, rfl⟩ := h
  obtain ⟨entries, hlisting, -⟩ := bind_eq_ok hfound
  obtain ⟨at_, hlocate, hat, -⟩ := listing_spec hlisting
  exact ⟨at_, hlocate, hat⟩

theorem LooksFor.cases (h : tree.LooksFor path test outcome) (hlocate : tree.locate path = .ok at_)
    (hfound : outcome = .ok found) :
    (∃ name, found = some (path.child name) ∧ tree.IsFirst at_ test name) ∨
      found = none ∧ ∀ name node, tree.node? (at_ ++ [name]) = some node → ¬ test name node := by
  obtain ⟨check, hcheck, rfl⟩ := h
  obtain ⟨entries, hlisting, hfound⟩ := bind_eq_ok hfound
  obtain rfl := Except.ok.inj hfound
  rcases find?_listing hlisting hlocate check hcheck with
    ⟨name, node, hfind, hfirst⟩ | ⟨hnone, hall⟩
  · rw [hfind]
    exact .inl ⟨name, rfl, hfirst⟩
  · rw [hnone]
    exact .inr ⟨rfl, hall⟩

/-- What is found is the first entry. -/
theorem LooksFor.first (h : tree.LooksFor path test outcome) (hlocate : tree.locate path = .ok at_)
    {below : Path} (hfound : outcome = .ok (some below)) :
    ∃ name, below = path.child name ∧ tree.IsFirst at_ test name := by
  rcases h.cases hlocate hfound with ⟨name, heq, hfirst⟩ | ⟨hnone, -⟩
  · exact ⟨name, Option.some.inj heq, hfirst⟩
  · cases hnone

theorem LooksFor.answers (h : tree.LooksFor path test outcome) (hlegible : tree.Legible path at_)
    (hat : tree.isDirectory at_ = true) : ∃ found, outcome = .ok found := by
  obtain ⟨check, -, rfl⟩ := h
  obtain ⟨entries, hlisting⟩ := hlegible.listing hat
  rw [hlisting]
  exact ⟨_, rfl⟩

/-- The first entry is found. -/
theorem LooksFor.of_first (h : tree.LooksFor path test outcome) (hlegible : tree.Legible path at_)
    (hat : tree.isDirectory at_ = true) {name : Text} (hfirst : tree.IsFirst at_ test name) :
    outcome = .ok (some (path.child name)) := by
  obtain ⟨found, hfound⟩ := h.answers hlegible hat
  rcases h.cases hlegible.located hfound with ⟨name', rfl, hfirst'⟩ | ⟨-, hall⟩
  · rwa [hfirst.unique hfirst']
  · obtain ⟨node, hnode, htest⟩ := hfirst.passes
    exact absurd htest (hall name node hnode)

end FileTree

end SfcProxy
