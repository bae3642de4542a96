import Mathlib.Data.List.Induction
import SfcProxy.Proofs.Listing

/-!
# Trees in which everything stands in a directory

In a file system everything stands in a directory. So a location with something at it is reached
from every location above it, and nothing can turn up behind a directory when the directory is made.
A path without `..` that leads to no new file reads the same bytes then, whatever else was made.

## Main definitions

* `FileTree.Rooted`: everything stands in a directory
* `FileTree.Adds`: what is new are directories, and files with names of a kind

## Main results

* `FileTree.Adds.readFile_eq_ok_iff`: what is read behind a path with a name of another kind
* `FileTree.Rooted.put`: a tree stays rooted
* `FileTree.Rooted.makeDirectories`, `FileTree.Rooted.writeFile`: so it does by the operations
-/

namespace SfcProxy.FileTree

variable {tree grown : FileTree} {path : Path} {at_ l : Location}

/-- Everything stands in a directory, as in every file system. -/
def Rooted (tree : FileTree) : Prop :=
  ∀ entry ∈ tree.nodes, tree.isDirectory entry.1.dropLast = true

theorem isSome_of_isDirectory (h : tree.isDirectory l = true) : (tree.node? l).isSome := by
  rw [isDirectory, decide_eq_true_eq] at h
  rw [h]
  rfl

theorem Rooted.isDirectory_dropLast (h : tree.Rooted) (hsome : (tree.node? l).isSome) :
    tree.isDirectory l.dropLast = true := by
  by_cases hl : l = []
  · subst hl
    exact decide_eq_true tree.node?_root
  · obtain ⟨node, hnode⟩ := Option.isSome_iff_exists.mp hsome
    exact h _ (exists_of_node? hl hnode)

/-- All that stands somewhere stands in directories. -/
theorem Rooted.isDirectory_above (h : tree.Rooted) {names : List Text} (hnames : names ≠ [])
    (hsome : (tree.node? (at_ ++ names)).isSome) : tree.isDirectory at_ = true := by
  induction names using List.reverseRecOn with
  | nil => exact absurd rfl hnames
  | append_singleton front name ih =>
    have habove := h.isDirectory_dropLast hsome
    rw [← List.append_assoc, List.dropLast_concat] at habove
    rcases eq_or_ne front [] with rfl | hfront
    · rwa [List.append_nil] at habove
    · exact ih hfront (isSome_of_isDirectory habove)

/-- Where something stands is reached by names that are not too long, as another tree shows. -/
theorem Rooted.walk (h : tree.Rooted) {names : List Text} (hnames : Text.ofString ".." ∉ names)
    (hwalk : grown.walk at_ names = .ok l) (hsome : (tree.node? l).isSome) :
    tree.walk at_ names = .ok l := by
  induction names generalizing at_ with
  | nil => exact hwalk
  | cons name names ih =>
    have hl := walk_down hnames hwalk
    rw [List.mem_cons, not_or] at hnames
    rw [FileTree.walk, if_neg (Ne.symm hnames.1)] at hwalk ⊢
    have hdirectory : tree.isDirectory at_ = true :=
      h.isDirectory_above (List.cons_ne_nil name names) (hl ▸ hsome)
    have hnext : (tree.node? (at_ ++ [name])).isSome := by
      rw [List.append_cons] at hl
      rcases eq_or_ne names [] with rfl | hrest
      · rwa [hl, List.append_nil] at hsome
      · exact isSome_of_isDirectory (h.isDirectory_above hrest (hl ▸ hsome))
    rw [← Option.isNone_eq_false_iff] at hnext
    rw [hdirectory, hnext, if_neg (by decide), if_neg Bool.false_ne_true]
    -- What is left to see is the length of the name, and that is the same in both trees.
    split at hwalk
    · cases hwalk
    · split at hwalk
      · cases hwalk
      · rename_i hshort
        rw [if_neg hshort]
        split at hwalk
        · cases hwalk
        · exact ih hnames.2 hwalk

/-! ## Reading -/

theorem size_of_locate (h : tree.locate path = .ok l) : nameSize path.text ≤ pathLimit := by
  unfold locate at h
  split at h
  · cases h
  · rename_i hsize
    exact Nat.le_of_not_lt hsize

theorem readFile_eq_ok_iff {bytes : List UInt8} : tree.readFile path = .ok bytes ↔
    checkPath path.text = .ok () ∧ ∃ l executable, tree.locate path = .ok l ∧
      tree.node? l = some (.file bytes executable) := by
  constructor
  · intro h
    obtain ⟨hcheck, h⟩ := guard_eq_ok h
    refine ⟨hcheck, ?_⟩
    rcases hlocate : tree.locate path with cause | l
    · rw [hlocate] at h
      cases h
    · rw [hlocate] at h
      simp only [bind, Except.bind] at h
      split at h
      · rename_i found executable hfile
        cases h
        exact ⟨l, executable, rfl, hfile⟩
      · cases h
      · cases h
  · rintro ⟨hcheck, l, executable, hlocate, hfile⟩
    refine guard_of_eq_ok hcheck ?_
    rw [hlocate]
    simp only [bind, Except.bind, hfile]
    rfl

theorem readFile_of_checkPath {e : FileError} (hcheck : checkPath path.text = .error e) :
    tree.readFile path = .error e := by
  unfold readFile guard
  rw [hcheck]

/-- What is new are directories where there was nothing, and files with names of a kind. -/
structure Adds (kind : Text → Prop) (tree grown : FileTree) : Prop where
  grows : tree.Grows grown
  nodes : ∀ l, grown.node? l = tree.node? l ∨
    tree.node? l = none ∧ grown.node? l = some .directory ∨
      ∃ name, l.getLast? = some name ∧ kind name

theorem Grows.trans {made : FileTree} (h : tree.Grows made) (h' : made.Grows grown) :
    tree.Grows grown :=
  ⟨h'.cwd_eq.trans h.cwd_eq, fun l hl => h'.kept l (h.kept l hl),
    fun l hl => h'.directories l (h.directories l hl)⟩

theorem Adds.refl (kind : Text → Prop) (tree : FileTree) : Adds kind tree tree :=
  ⟨⟨rfl, fun _ h => h, fun _ h => h⟩, fun _ => .inl rfl⟩

/-- **What is read behind a path with a name of another kind is not new.** -/
theorem Adds.readFile_eq_ok_iff {kind : Text → Prop} (h : Adds kind tree grown)
    (hrooted : tree.Rooted) (hparts : Text.ofString ".." ∉ path.parts) {name : Text}
    (hname : path.parts.getLast? = some name) (hother : ¬ kind name) {bytes : List UInt8} :
    grown.readFile path = .ok bytes ↔ tree.readFile path = .ok bytes := by
  have hlast : ∀ {t : FileTree} {l}, t.locate path = .ok l → ¬ ∃ name, l.getLast? = some name ∧
      kind name := by
    rintro t l hlocate ⟨name', hname', hkind⟩
    rw [walk_down hparts (walk_of_locate hlocate), List.getLast?_append, hname,
      Option.some_or, Option.some.injEq] at hname'
    exact hother (hname' ▸ hkind)
  rw [FileTree.readFile_eq_ok_iff, FileTree.readFile_eq_ok_iff]
  refine and_congr_right fun _ => ⟨?_, ?_⟩
  · rintro ⟨l, executable, hlocate, hfile⟩
    have hold : tree.node? l = some (.file bytes executable) := by
      rcases h.nodes l with hsame | ⟨-, hdirectory⟩ | hkind
      · rw [← hsame, hfile]
      · rw [hdirectory] at hfile
        cases hfile
      · exact absurd hkind (hlast hlocate)
    have hwalk := walk_of_locate hlocate
    rw [origin_eq_of_grows h.grows] at hwalk
    refine ⟨l, executable, locate_of_walk (size_of_locate hlocate) ?_, hold⟩
    exact hrooted.walk hparts hwalk (by rw [hold]; rfl)
  · rintro ⟨l, executable, hlocate, hfile⟩
    have hnew : grown.node? l = some (.file bytes executable) := by
      rcases h.nodes l with hsame | ⟨hnone, -⟩ | hkind
      · rw [hsame, hfile]
      · rw [hnone] at hfile
        cases hfile
      · exact absurd hkind (hlast hlocate)
    refine ⟨l, executable, locate_of_walk (size_of_locate hlocate) ?_, hnew⟩
    rw [origin_eq_of_grows h.grows]
    exact walk_mono h.grows (walk_of_locate hlocate)

/-! ## Operations -/

/-- A tree stays rooted if a node is put into a directory, in place of no directory. -/
theorem Rooted.put (h : tree.Rooted) (habove : tree.isDirectory l.dropLast = true)
    (hfree : tree.isDirectory l = false) (node : FileNode) : (tree.put l node).Rooted := by
  have hgrows := grows_put hfree node
  intro entry hentry
  rcases List.mem_append.mp hentry with hold | hnew
  · exact hgrows.directories _ (h entry (List.mem_filter.mp hold).1)
  · obtain rfl := List.mem_singleton.mp hnew
    exact hgrows.directories _ habove

/-- What may be created is created in a directory. -/
theorem Rooted.above_slot (h : tree.Rooted) {node? : Option FileNode}
    (hslot : tree.slot path = .ok (l, node?)) (hfree : node? ≠ some .directory) :
    tree.isDirectory l.dropLast = true := by
  unfold slot at hslot
  split at hslot
  · cases hslot
  split at hslot
  · cases hslot
    exact absurd rfl hfree
  rename_i last hlast
  split at hslot
  · rename_i hup
    rcases hwalk : tree.walk (tree.origin path) path.parts with cause | up
    all_goals
      rw [hwalk] at hslot
      cases hslot
    rw [← List.dropLast_append_getLast? last hlast, walk_append] at hwalk
    rcases hfront : tree.walk (tree.origin path) path.parts.dropLast with cause | below
    all_goals rw [hfront] at hwalk
    · cases hwalk
    · change tree.walk below [last] = .ok l at hwalk
      rw [FileTree.walk, if_pos hup] at hwalk
      split at hwalk
      · cases hwalk
      · rename_i hdirectory
        cases hwalk
        rw [Bool.not_eq_true', Bool.not_eq_false] at hdirectory
        have habove := h.isDirectory_dropLast (isSome_of_isDirectory hdirectory)
        exact absurd (of_decide_eq_true habove) hfree
  · rcases hwalk : tree.walk (tree.origin path) path.parts.dropLast with cause | above
    · rw [hwalk] at hslot
      cases hslot
    · rw [hwalk] at hslot
      change (if _ then _ else _) = _ at hslot
      split at hslot
      · cases hslot
      · rename_i hdirectory
        split at hslot
        · cases hslot
        · cases hslot
          rw [Bool.not_eq_true', Bool.not_eq_false] at hdirectory
          rwa [List.dropLast_concat]

theorem Rooted.makeDirectory (h : tree.Rooted) (hmade : tree.makeDirectory path = .ok grown) :
    grown.Rooted := by
  obtain ⟨l, hslot, rfl⟩ := makeDirectory_eq_ok hmade
  refine h.put (h.above_slot hslot nofun) (not_isDirectory_of_node?_eq_none ?_) .directory
  exact ((slot_spec hslot).resolve_left nofun).1.symm

theorem Rooted.ensureDirectory (h : tree.Rooted) (path : Path) :
    (tree.ensureDirectory path).1.Rooted := by
  unfold FileTree.ensureDirectory
  split
  · rename_i made hmade
    exact h.makeDirectory hmade
  · exact h

theorem Rooted.makeDirectories (h : tree.Rooted) (path : Path) :
    (tree.makeDirectories path).1.Rooted := by
  have hmaking := making_makeDirectories tree path
  generalize tree.makeDirectories path = result at hmaking ⊢
  induction hmaking with
  | alone path => exact h.ensureDirectory path
  | failed _ ih => exact ih
  | behind _ ih => exact ih.ensureDirectory _

theorem Rooted.writeFile {bytes : List UInt8} (h : tree.Rooted)
    (hwritten : tree.writeFile path bytes = .ok grown) : grown.Rooted := by
  obtain ⟨l, node?, executable, hslot, hfree, rfl⟩ := writeFile_eq_ok hwritten
  have hnode := ((slot_spec hslot).resolve_left hfree).1
  refine h.put (h.above_slot hslot hfree) (decide_eq_false ?_) _
  rwa [← hnode]

end SfcProxy.FileTree
