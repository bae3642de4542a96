import SfcProxy.Proofs.Json.Lines

/-!
# Values at the end of a path

A path leads into a value by the names of members and by positions in arrays. Setting or erasing a
member changes what lies behind its name and nothing else, and moving lines keeps all paths: the
number at the end of a path that ends with `line` is moved, unless that would make it negative.

## Main definitions

* `Json.Step`, `Json.follow?`: a step of a path, and the value at its end

## Main results

* `Json.follow?_set`, `Json.get?_erase`: what lies behind a member after an operation
* `Json.follow?_shiftLines`, `Json.follow?_shiftLines_of_notMem`: moving lines keeps the paths
* `Json.follow?_line_shiftLines`: a line number at the end of its path
-/

namespace SfcProxy.Json

/-! ## Paths -/

/-- A step into a value. -/
inductive Step where
  | member (name : Text)
  | item (i : Nat)
  deriving DecidableEq

/-- The value at the end of a path. -/
def follow? : List Step → Json → Option Json
  | [], v => some v
  | .member name :: path, .obj members => (get? name members).bind (follow? path)
  | .item i :: path, .arr items => items[i]?.bind (follow? path)
  | _ :: _, _ => none

theorem follow?_append (path rest : List Step) (v : Json) :
    v.follow? (path ++ rest) = (v.follow? path).bind (follow? rest) := by
  induction path generalizing v with
  | nil => rfl
  | cons step path ih =>
    cases step with
    | member name =>
      cases v with
      | obj members =>
        rw [List.cons_append, follow?, follow?, Option.bind_assoc]
        congr 1
        funext w
        exact ih w
      | null | bool _ | int _ | real _ | str _ | arr _ => rfl
    | item i =>
      cases v with
      | arr items =>
        rw [List.cons_append, follow?, follow?, Option.bind_assoc]
        congr 1
        funext w
        exact ih w
      | null | bool _ | int _ | real _ | str _ | obj _ => rfl

/-! ## Members -/

/-- Behind the name of a member that was set lies its new value, and behind other names what was
there. -/
theorem follow?_set (name other : Text) (v : Json) (members : Members) (path : List Step) :
    (obj (set name v members)).follow? (.member other :: path)
      = if other = name then v.follow? path
        else (obj members).follow? (.member other :: path) := by
  rw [follow?, get?_set]
  split <;> rfl

/-- A number at the end of a path is still there after a member was set, if it was not behind that
member or is found in the new value, too. -/
theorem follow?_set_int {name : Text} {members : Members} {v w : Json} {path : List Step} {n : Int}
    (hname : get? name members = some v) (h : (obj members).follow? path = some (.int n))
    (hvalue : ∀ rest, path = .member name :: rest → v.follow? rest = some (.int n) →
      w.follow? rest = some (.int n)) :
    (obj (set name w members)).follow? path = some (.int n) := by
  cases path with
  | nil => cases h
  | cons step rest =>
    cases step with
    | item i => cases h
    | member other =>
      rw [follow?_set]
      by_cases hother : other = name
      · subst hother
        rw [if_pos rfl]
        rw [follow?, hname] at h
        exact hvalue rest rfl h
      · rwa [if_neg hother]

/-- A member that is there keeps its place, so another one may be set before or after it. -/
theorem set_comm {name other : Text} (hne : name ≠ other) {members : Members}
    (hname : (get? name members).isSome) (v w : Json) :
    set name v (set other w members) = set other w (set name v members) := by
  induction members with
  | nil => cases hname
  | cons entry rest ih =>
    obtain ⟨key, old⟩ := entry
    by_cases hkey : key = name
    · have hother : key ≠ other := fun h => hne (hkey.symm.trans h)
      simp only [set, if_pos hkey, if_neg hother]
    · rw [get?, if_neg hkey] at hname
      by_cases hother : key = other
      · simp only [set, if_neg hkey, if_pos hother]
      · simp only [set, if_neg hkey, if_neg hother, ih hname]

theorem set_set (name : Text) (v w : Json) (members : Members) :
    set name v (set name w members) = set name v members := by
  induction members with
  | nil => simp [set]
  | cons entry rest ih =>
    obtain ⟨key, old⟩ := entry
    by_cases hkey : key = name
    · rw [set, if_pos hkey, set, if_pos hkey, set, if_pos hkey]
    · rw [set, if_neg hkey, set, if_neg hkey, ih, set, if_neg hkey]

theorem get?_erase (name other : Text) (members : Members) :
    get? other (erase name members) = if other = name then none else get? other members := by
  induction members with
  | nil => simp [erase, get?]
  | cons entry rest ih =>
    obtain ⟨key, v⟩ := entry
    rw [erase] at ih ⊢
    rw [List.filter_cons]
    by_cases hkey : key = name
    · subst hkey
      simp only [ne_eq, not_true_eq_false, decide_false, Bool.false_eq_true, if_false, ih, get?]
      by_cases hother : other = key
      · rw [if_pos hother, if_pos hother]
      · rw [if_neg hother, if_neg hother, if_neg (Ne.symm hother)]
    · simp only [ne_eq, hkey, not_false_eq_true, decide_true, if_true, get?, ih]
      by_cases hother : other = name
      · rw [if_pos hother, if_pos hother, if_neg (hother ▸ hkey)]
      · rw [if_neg hother, if_neg hother]

/-! ## Lines -/

/-- Moving lines keeps the paths to objects. -/
theorem follow?_shiftLines (offset : Int) {path : List Step} {v : Json} {members : Members}
    (h : v.follow? path = some (.obj members)) :
    (v.shiftLines offset).follow? path = some (.obj (shiftMembers offset members)) := by
  induction path generalizing v with
  | nil =>
    obtain rfl := Option.some.inj h
    rw [shiftLines_obj]
    rfl
  | cons step path ih =>
    cases v with
    | obj entries =>
      cases step with
      | item i => cases h
      | member name =>
        obtain ⟨w, hw, h⟩ := Option.bind_eq_some_iff.mp h
        have hkept : movedLine? offset name w = none := by
          cases w with
          | obj _ => exact (onlyLines_movedLine? offset).obj _ _
          | arr _ => exact (onlyLines_movedLine? offset).arr _ _
          | null | bool _ | int _ | real _ | str _ =>
            cases path with
            | nil => cases h
            | cons step path => cases step <;> cases h
        rw [shiftLines_obj, follow?, get?_shiftMembers_eq, hw, Option.map_some, hkept,
          Option.getD_none]
        exact ih h
    | arr items =>
      cases step with
      | member name => cases h
      | item i =>
        obtain ⟨w, hw, h⟩ := Option.bind_eq_some_iff.mp h
        rw [shiftLines_eq_mapMembers, mapMembers, follow?, getElem?_mapMembersItems, hw,
          Option.map_some, ← shiftLines_eq_mapMembers]
        exact ih h
    | null | bool _ | int _ | real _ | str _ => cases step <;> cases h

/-- What lies at the end of a path without a step called `line` has its own lines moved. -/
theorem follow?_shiftLines_of_notMem (offset : Int) {path : List Step}
    (hpath : Step.member "line" ∉ path) (v : Json) :
    (v.shiftLines offset).follow? path = (v.follow? path).map (shiftLines offset) := by
  induction path generalizing v with
  | nil => rfl
  | cons step path ih =>
    obtain ⟨hstep, hrest⟩ := not_or.mp (mt List.mem_cons.mpr hpath)
    cases step with
    | member name =>
      have hname : name ≠ "line" := fun h => hstep (by rw [h])
      cases v with
      | obj members =>
        rw [shiftLines_obj, follow?, get?_shiftMembers offset hname, follow?]
        cases get? name members with
        | none => rfl
        | some w => exact ih hrest w
      | null | bool _ | int _ | real _ | str _ | arr _ =>
        simp [shiftLines_eq_mapMembers, mapMembers, follow?]
    | item i =>
      cases v with
      | arr items =>
        rw [shiftLines_eq_mapMembers, mapMembers, follow?, getElem?_mapMembersItems, follow?]
        cases items[i]? with
        | none => rfl
        | some w =>
          rw [Option.map_some, ← shiftLines_eq_mapMembers]
          exact ih hrest w
      | null | bool _ | int _ | real _ | str _ | obj _ =>
        simp [shiftLines_eq_mapMembers, mapMembers, follow?]

/-- A line number at the end of its path is moved, unless that would make it negative. -/
theorem follow?_line_shiftLines (offset : Int) {path : List Step} {v : Json} {n : Int}
    (h : v.follow? (path ++ [.member "line"]) = some (.int n)) :
    (v.shiftLines offset).follow? (path ++ [.member "line"])
      = some (.int (if 0 ≤ n + offset then n + offset else n)) := by
  rw [follow?_append] at h ⊢
  obtain ⟨w, hw, h⟩ := Option.bind_eq_some_iff.mp h
  cases w with
  | obj members =>
    obtain ⟨line, hline, h⟩ := Option.bind_eq_some_iff.mp h
    obtain rfl : line = .int n := Option.some.inj h
    rw [follow?_shiftLines offset hw, Option.bind_some, follow?, get?_shiftMembers_eq, hline,
      ← movedLine_int_eq, movedLine]
    simp [follow?, shiftLines_eq_mapMembers, mapMembers]
  | null | bool _ | int _ | real _ | str _ | arr _ => cases h

end SfcProxy.Json
