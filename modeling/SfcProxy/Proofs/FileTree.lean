import Mathlib.Data.List.Basic
import SfcProxy.FileTree
import SfcProxy.Proofs.Lru

/-!
# What operations on a file tree change

An operation puts at most one node, at the location that its path has from then on. A path that
leads somewhere still leads there when directories are made or files are written, since no node is
taken away and no directory becomes a file. So the directories that are made for a file lie on the
way to it, and a file that was written is read back.

## Main definitions

* `FileTree.Grows`: nothing is taken away, and directories stay directories
* `FileTree.MakesWay`: what is new are directories on the way along a path
* `FileTree.Stores`: bytes are stored at the end of a path, and all else stays as it is

## Main results

* `FileTree.walk_mono`: paths lead where they led before
* `FileTree.makesWay_makeDirectories`: making directories makes way
* `FileTree.stores_writeFile`: writing a file stores its bytes
* `FileTree.Stores.readFile`: stored bytes are read back
-/

namespace SfcProxy.FileTree

variable {tree mid grown : FileTree} {path : Path}

/-! ## Nodes -/

/-- Nodes are found as in a map by location. -/
theorem node?_put (tree : FileTree) (at_ : Location) (node : FileNode) {l : Location}
    (hl : l ≠ []) : (tree.put at_ node).node? l = if l = at_ then some node else tree.node? l := by
  rw [node?, node?, if_neg hl, if_neg hl]
  exact Lru.get?_insert at_ l node tree.nodes

theorem node?_put_of_ne {at_ l : Location} (h : l ≠ at_) (node : FileNode) :
    (tree.put at_ node).node? l = tree.node? l := by
  by_cases hroot : l = []
  · rw [hroot, node?, node?, if_pos rfl, if_pos rfl]
  · rw [node?_put _ _ _ hroot, if_neg h]

theorem node?_root (tree : FileTree) : tree.node? [] = some .directory :=
  if_pos rfl

theorem ne_root_of_node?_eq_none {l : Location} (h : tree.node? l = none) : l ≠ [] := by
  rintro rfl
  rw [node?_root] at h
  cases h

theorem not_isDirectory_of_node?_eq_none {l : Location} (h : tree.node? l = none) :
    tree.isDirectory l = false := by
  simp [isDirectory, h]

/-- Nothing is taken away, and directories stay directories. -/
structure Grows (tree grown : FileTree) : Prop where
  cwd_eq : grown.cwd = tree.cwd
  kept : ∀ l, (tree.node? l).isSome → (grown.node? l).isSome
  directories : ∀ l, tree.isDirectory l = true → grown.isDirectory l = true

/-- So it is if a node is put where there is no directory. -/
theorem grows_put {at_ : Location} (h : tree.isDirectory at_ = false) (node : FileNode) :
    tree.Grows (tree.put at_ node) := by
  refine ⟨rfl, fun l hl => ?_, fun l hl => ?_⟩
  · by_cases hat : l = at_
    · by_cases hroot : l = []
      · rw [hroot, node?_root]
        rfl
      · rw [node?_put _ _ _ hroot, if_pos hat]
        rfl
    · rwa [node?_put_of_ne hat]
  · have hat : l ≠ at_ := by
      rintro rfl
      rw [h] at hl
      cases hl
    unfold isDirectory at hl ⊢
    rwa [node?_put_of_ne hat]

/-! ## Paths -/

/-- Paths lead where they led before. -/
theorem walk_mono (h : tree.Grows grown) {parts : List Text} {at_ l : Location}
    (hwalk : tree.walk at_ parts = .ok l) : grown.walk at_ parts = .ok l := by
  induction parts generalizing at_ with
  | nil => exact hwalk
  | cons part parts ih =>
    -- Every test on the way that was passed in the old tree is passed in the grown one.
    rw [walk] at hwalk ⊢
    split at hwalk
    · cases hwalk
    · rename_i hdirectory
      rw [Bool.not_eq_true', Bool.not_eq_false] at hdirectory
      rw [h.directories _ hdirectory, if_neg (by decide)]
      split at hwalk
      · rename_i hup
        rw [if_pos hup]
        exact ih hwalk
      · rename_i hup
        rw [if_neg hup]
        split at hwalk
        · cases hwalk
        · rename_i hlong
          rw [if_neg hlong]
          split at hwalk
          · cases hwalk
          · rename_i hsome
            rw [Bool.not_eq_true, Option.isNone_eq_false_iff] at hsome
            have hkept := h.kept _ hsome
            rw [← Option.isNone_eq_false_iff] at hkept
            rw [hkept, if_neg (by decide)]
            exact ih hwalk

theorem walk_append (tree : FileTree) (at_ : Location) (front back : List Text) :
    tree.walk at_ (front ++ back) = (tree.walk at_ front).bind (tree.walk · back) := by
  induction front generalizing at_ with
  | nil => rfl
  | cons part front ih =>
    rw [List.cons_append, walk, walk]
    split
    · rfl
    · split
      · exact ih _
      · split
        · rfl
        · split
          · rfl
          · exact ih _

/-- Names that do not lead up are walked down one by one. -/
theorem walk_down {names : List Text} (hnames : Text.ofString ".." ∉ names) {at_ l : Location}
    (h : tree.walk at_ names = .ok l) : l = at_ ++ names := by
  induction names generalizing at_ with
  | nil =>
    cases h
    rw [List.append_nil]
  | cons name names ih =>
    rw [List.mem_cons, not_or] at hnames
    rw [walk] at h
    split at h
    · cases h
    · rw [if_neg (Ne.symm hnames.1)] at h
      split at h
      · cases h
      · split at h
        · cases h
        · rw [ih hnames.2 h, List.append_assoc, List.singleton_append]

theorem walk_of_locate {l : Location} (h : tree.locate path = .ok l) :
    tree.walk (tree.origin path) path.parts = .ok l := by
  unfold locate at h
  split at h
  · cases h
  · exact h

theorem origin_eq_of_grows (h : tree.Grows grown) (path : Path) :
    grown.origin path = tree.origin path := by
  rw [origin, origin, h.cwd_eq]

/-- A name that something stands under is one step of the way. -/
theorem walk_step {above : Location} {part : Text} (hdirectory : tree.isDirectory above = true)
    (hup : part ≠ "..") (hshort : nameSize part ≤ nameLimit)
    (hsome : (tree.node? (above ++ [part])).isSome) :
    tree.walk above [part] = .ok (above ++ [part]) := by
  rw [← Option.isNone_eq_false_iff] at hsome
  rw [walk, hdirectory, if_neg (by decide), if_neg hup, if_neg (Nat.not_lt.mpr hshort), hsome,
    if_neg (by decide), walk]

/-- What stands where the last component of a path may be created. Once something stands there, the
path leads there. -/
theorem slot_spec {l : Location} {node? : Option FileNode} (h : tree.slot path = .ok (l, node?)) :
    node? = some .directory ∨ node? = tree.node? l ∧ ∀ grown, tree.Grows grown →
      (grown.node? l).isSome → grown.walk (grown.origin path) path.parts = .ok l := by
  unfold slot at h
  split at h
  · cases h
  · split at h
    · cases h
      exact .inl rfl
    · rename_i last hlast
      right
      split at h
      · rcases hwalk : tree.walk (tree.origin path) path.parts with e | at_
        all_goals
          rw [hwalk] at h
          cases h
        refine ⟨rfl, fun grown hgrows _ => ?_⟩
        rw [origin_eq_of_grows hgrows]
        exact walk_mono hgrows hwalk
      · rename_i hup
        rcases hwalk : tree.walk (tree.origin path) path.parts.dropLast with e | above
        · rw [hwalk] at h
          cases h
        · rw [hwalk] at h
          change (if _ then _ else _) = _ at h
          split at h
          · cases h
          · rename_i hdirectory
            rw [Bool.not_eq_true', Bool.not_eq_false] at hdirectory
            split at h
            · cases h
            · rename_i hshort
              cases h
              refine ⟨rfl, fun grown hgrows hsome => ?_⟩
              rw [← List.dropLast_append_getLast? last hlast, walk_append,
                origin_eq_of_grows hgrows, walk_mono hgrows hwalk]
              exact walk_step (hgrows.directories _ hdirectory) hup (Nat.le_of_not_lt hshort) hsome

theorem guard_eq_ok {α : Type} {outcome : Except SystemCause α} {a : α}
    (h : guard path outcome = .ok a) : checkPath path.text = .ok () ∧ outcome = .ok a := by
  unfold guard at h
  split at h
  · cases h
  · rename_i hcheck
    split at h
    · cases h
      exact ⟨hcheck, rfl⟩
    · cases h

theorem guard_of_eq_ok {α : Type} {outcome : Except SystemCause α} {a : α}
    (hcheck : checkPath path.text = .ok ()) (h : outcome = .ok a) : guard path outcome = .ok a := by
  unfold guard
  rw [hcheck, h]

/-- Only the system refuses an operation on a path that can be given to it. -/
theorem isSystem_of_guard {α : Type} {outcome : Except SystemCause α} {e : FileError}
    (hcheck : checkPath path.text = .ok ()) (h : guard path outcome = .error e) :
    e.isSystem = true := by
  unfold guard at h
  rw [hcheck] at h
  dsimp only at h
  split at h
  · cases h
  · cases h
    rfl

theorem locate_of_walk {l : Location} (hsize : nameSize path.text ≤ pathLimit)
    (h : tree.walk (tree.origin path) path.parts = .ok l) : tree.locate path = .ok l := by
  rw [locate, if_neg (Nat.not_lt.mpr hsize)]
  exact h

theorem size_of_slot {found : Location × Option FileNode} (h : tree.slot path = .ok found) :
    nameSize path.text ≤ pathLimit := by
  unfold slot at h
  split at h
  · cases h
  · rename_i hsize
    exact Nat.le_of_not_lt hsize

/-! ## Making directories -/

/-- What is new are directories on the way along a path. -/
structure MakesWay (path : Path) (tree grown : FileTree) : Prop where
  cwd_eq : grown.cwd = tree.cwd
  nodes : ∀ l, grown.node? l = tree.node? l ∨ tree.node? l = none ∧
    grown.node? l = some .directory ∧
      ∃ n, grown.walk (grown.origin path) (path.parts.take n) = .ok l

theorem MakesWay.refl (path : Path) (tree : FileTree) : MakesWay path tree tree :=
  ⟨rfl, fun _ => .inl rfl⟩

theorem MakesWay.grows (h : MakesWay path tree grown) : tree.Grows grown := by
  refine ⟨h.cwd_eq, fun l hl => ?_, fun l hl => ?_⟩
  · rcases h.nodes l with heq | ⟨hnone, -⟩
    · rwa [heq]
    · rw [hnone] at hl
      cases hl
  · rcases h.nodes l with heq | ⟨hnone, -⟩
    · unfold isDirectory at hl ⊢
      rwa [heq]
    · unfold isDirectory at hl
      rw [hnone] at hl
      cases hl

theorem MakesWay.trans (h : MakesWay path tree mid) (h' : MakesWay path mid grown) :
    MakesWay path tree grown := by
  refine ⟨h'.cwd_eq.trans h.cwd_eq, fun l => ?_⟩
  rcases h'.nodes l with heq | ⟨hnone, hnew⟩
  · rcases h.nodes l with heq' | ⟨hnone, hdirectory, n, hwalk⟩
    · exact .inl (heq.trans heq')
    · refine .inr ⟨hnone, heq.trans hdirectory, n, ?_⟩
      rw [origin_eq_of_grows h'.grows]
      exact walk_mono h'.grows hwalk
  · rcases h.nodes l with heq' | ⟨-, hdirectory, -⟩
    · exact .inr ⟨heq' ▸ hnone, hnew⟩
    · rw [hnone] at hdirectory
      cases hdirectory

/-- The way to the directory above is part of the way. -/
theorem MakesWay.of_parent (h : MakesWay path.parent tree grown) : MakesWay path tree grown := by
  refine ⟨h.cwd_eq, fun l => ?_⟩
  rcases h.nodes l with heq | ⟨hnone, hdirectory, n, hwalk⟩
  · exact .inl heq
  · refine .inr ⟨hnone, hdirectory, min n (path.parts.length - 1), ?_⟩
    rw [← List.take_take, ← List.dropLast_eq_take]
    exact hwalk

/-- A directory is made where there is nothing, in the slot of its path. -/
theorem makeDirectory_eq_ok (h : tree.makeDirectory path = .ok grown) :
    ∃ l, tree.slot path = .ok (l, none) ∧ grown = tree.put l .directory := by
  obtain ⟨-, h⟩ := guard_eq_ok h
  rcases hslot : tree.slot path with e | ⟨l, node?⟩
  · rw [hslot] at h
    cases h
  · rw [hslot] at h
    change (if _ then _ else _) = _ at h
    split at h
    · cases h
    · rename_i hfree
      cases h
      rw [Bool.not_eq_true, Option.isSome_eq_false_iff, Option.isNone_iff_eq_none] at hfree
      exact ⟨l, by rw [hfree], rfl⟩

theorem makesWay_makeDirectory (h : tree.makeDirectory path = .ok grown) :
    MakesWay path tree grown := by
  obtain ⟨l, hslot, rfl⟩ := makeDirectory_eq_ok h
  obtain ⟨hnone, hway⟩ := (slot_spec hslot).resolve_left nofun
  have hfree := hnone.symm
  have hgrows := grows_put (not_isDirectory_of_node?_eq_none hfree) .directory
  have hnew : (tree.put l .directory).node? l = some .directory := by
    rw [node?_put _ _ _ (ne_root_of_node?_eq_none hfree), if_pos rfl]
  refine ⟨rfl, fun other => ?_⟩
  by_cases hother : other = l
  · subst hother
    refine .inr ⟨hfree, hnew, path.parts.length, ?_⟩
    rw [List.take_length]
    exact hway _ hgrows (by rw [hnew]; rfl)
  · exact .inl (node?_put_of_ne hother .directory)

theorem makesWay_ensureDirectory (path : Path) (tree : FileTree) :
    MakesWay path tree (tree.ensureDirectory path).1 := by
  unfold ensureDirectory
  split
  · rename_i made hmade
    exact makesWay_makeDirectory hmade
  · exact .refl path tree

/-- How a directory is made with those above it: alone, or behind those above, and not at all if
one of them cannot be made. -/
inductive Making (tree : FileTree) : Path → FileTree × Option FileError → Prop
  | alone (path : Path) : Making tree path (tree.ensureDirectory path)
  | failed {path : Path} {made : FileTree} {e : FileError}
    (above : Making tree path.parent (made, some e)) : Making tree path (made, some e)
  | behind {path : Path} {made : FileTree} (above : Making tree path.parent (made, none)) :
    Making tree path (made.ensureDirectory path)

theorem making_makeDirectoriesFrom (tree : FileTree) (path : Path) (depth : Nat) :
    Making tree path (tree.makeDirectoriesFrom path depth) := by
  induction depth generalizing path with
  | zero => exact .alone path
  | succ depth ih =>
    rw [makeDirectoriesFrom]
    split
    · split
      · exact .alone path
      · have habove := ih path.parent
        rcases hmade : makeDirectoriesFrom tree path.parent depth with ⟨made, e?⟩
        rw [hmade] at habove
        cases e? with
        | some e => exact .failed habove
        | none => exact .behind habove
    · exact .alone path

theorem making_makeDirectories (tree : FileTree) (path : Path) :
    Making tree path (tree.makeDirectories path) :=
  making_makeDirectoriesFrom tree path path.parts.length

/-- Directories are made on the way along a path, also if the last of them cannot be made. -/
theorem makesWay_makeDirectories (path : Path) (tree : FileTree) :
    MakesWay path tree (tree.makeDirectories path).1 := by
  have hmaking := making_makeDirectories tree path
  generalize tree.makeDirectories path = result at hmaking ⊢
  induction hmaking with
  | alone path => exact makesWay_ensureDirectory path tree
  | failed _ ih => exact ih.of_parent
  | behind _ ih => exact ih.of_parent.trans (makesWay_ensureDirectory _ _)

/-! ## Writing files -/

/-- Bytes are stored at the end of a path, in a file that is there already or is new, and all else
stays as it is. -/
structure Stores (path : Path) (bytes : List UInt8) (tree grown : FileTree) : Prop where
  cwd_eq : grown.cwd = tree.cwd
  stored : ∃ l executable, grown.locate path = .ok l ∧ tree.isDirectory l = false ∧
    grown.node? l = some (.file bytes executable) ∧
      ∀ other, other ≠ l → grown.node? other = tree.node? other
  readFile : grown.readFile path = .ok bytes

/-- A file is put into the slot of its path, in place of no directory. -/
theorem writeFile_eq_ok {bytes : List UInt8} (h : tree.writeFile path bytes = .ok grown) :
    ∃ l node? executable, tree.slot path = .ok (l, node?) ∧ node? ≠ some .directory ∧
      grown = tree.put l (.file bytes executable) := by
  obtain ⟨-, h⟩ := guard_eq_ok h
  rcases hslot : tree.slot path with e | ⟨l, node?⟩
  · rw [hslot] at h
    cases h
  rw [hslot] at h
  cases node? with
  | none =>
    cases h
    exact ⟨l, none, false, rfl, nofun, rfl⟩
  | some node =>
    cases node with
    | directory => cases h
    | file old executable =>
      cases h
      exact ⟨l, some (.file old executable), executable, rfl, nofun, rfl⟩

theorem stores_writeFile {bytes : List UInt8} (h : tree.writeFile path bytes = .ok grown) :
    Stores path bytes tree grown := by
  obtain ⟨hcheck, -⟩ := guard_eq_ok h
  obtain ⟨l, node?, executable, hslot, hfile, rfl⟩ := writeFile_eq_ok h
  obtain ⟨rfl, hway⟩ := (slot_spec hslot).resolve_left hfile
  have hdirectory : tree.isDirectory l = false := by
    simpa [isDirectory] using hfile
  have hroot : l ≠ [] := by
    rintro rfl
    exact hfile (node?_root tree)
  have hnew : (tree.put l (.file bytes executable)).node? l = some (.file bytes executable) := by
    rw [node?_put _ _ _ hroot, if_pos rfl]
  have hlocate : (tree.put l (.file bytes executable)).locate path = .ok l :=
    locate_of_walk (size_of_slot hslot) (hway _ (grows_put hdirectory _) (by rw [hnew]; rfl))
  refine ⟨rfl, ⟨l, executable, hlocate, hdirectory, hnew, fun other hother => ?_⟩, ?_⟩
  · exact node?_put_of_ne hother _
  · refine guard_of_eq_ok hcheck ?_
    rw [hlocate]
    simp only [bind, Except.bind, hnew]
    rfl

end SfcProxy.FileTree
