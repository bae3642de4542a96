import Mathlib.Tactic.Common
import SfcProxy.Json.Lines

/-!
# Line numbers at their places

A place in a value is a path of positions in arrays and objects. Moving lines keeps all places, and
a line number that is an integer is found at its place again, with the offset added to it unless the
sum is negative.

Two offsets move the lines of a value alike exactly if they move each of its line numbers alike,
wherever it stands. So an offset can be read off from a single line number that is no less than
zero.

## Main definitions

* `Json.place?`: the value at a place
* `Json.LinesMoved`: the lines of one value are those of another, moved by an offset
* `Json.HasLine`: some line number in a value has a property
* `Json.shiftMembers`: the members of an object with their lines moved

## Main results

* `Json.get?_set`: one member of an object after another was set
* `Json.linesMoved_shiftLines`: shifting moves every line
* `Json.shiftLines_eq_iff`: when two offsets come to the same
* `Json.shiftLines_injective`: when an offset can be read off
-/

namespace SfcProxy.Json

/-! ## Members -/

theorem get?_set (name other : Text) (v : Json) (members : Members) :
    get? other (set name v members) = if other = name then some v else get? other members := by
  induction members with
  | nil => simp [set, get?, eq_comm]
  | cons entry rest ih =>
    obtain ⟨key, old⟩ := entry
    rw [set]
    split
    · rename_i hkey
      subst hkey
      simp only [get?]
      split <;> simp_all [eq_comm]
    · rename_i hkey
      simp only [get?, ih]
      split
      · rename_i hother
        subst hother
        simp [hkey]
      · rfl

/-! ## Places -/

/-- The value at the end of a path of positions in arrays and objects. -/
def place? : List Nat → Json → Option Json
  | [], v => some v
  | i :: path, .arr items => items[i]?.bind (place? path)
  | i :: path, .obj members => members[i]?.bind fun entry => place? path entry.2
  | _ :: _, _ => none

/-- Every object of a value has its place in another, and every line number of it that is an integer
is found there with an offset added to it, or as it was if the sum is negative. -/
def LinesMoved (offset : Int) (v w : Json) : Prop :=
  ∀ path members, v.place? path = some (.obj members) →
    ∃ moved : Members, w.place? path = some (.obj moved) ∧
      ∀ (i : Nat) (n : Int), members[i]? = some (("line" : Text), .int n) →
        (0 ≤ n + offset → moved[i]? = some (("line" : Text), .int (n + offset))) ∧
        (n + offset < 0 → moved[i]? = some (("line" : Text), .int n))

theorem getElem?_mapMembersItems (replace : Text → Json → Option Json) (items : List Json)
    (i : Nat) : (mapMembersItems replace items)[i]? = items[i]?.map (mapMembers replace) := by
  induction items generalizing i with
  | nil => rfl
  | cons v rest ih =>
    rw [mapMembersItems]
    cases i with
    | zero => rfl
    | succ i => exact ih i

theorem getElem?_mapMembersList (replace : Text → Json → Option Json) (members : Members)
    (i : Nat) : (mapMembersList replace members)[i]? = members[i]?.map fun entry =>
      (entry.1, (replace entry.1 entry.2).getD (mapMembers replace entry.2)) := by
  induction members generalizing i with
  | nil => rfl
  | cons entry rest ih =>
    rw [mapMembersList]
    cases i with
    | zero => rfl
    | succ i => exact ih i

/-- Where only numbers are replaced, objects keep their places. -/
theorem place?_mapMembers {replace : Text → Json → Option Json}
    (hnumber : ∀ name v, (replace name v).isSome → ∀ i path, v.place? (i :: path) = none)
    (hobject : ∀ name members, replace name (.obj members) = none) {path : List Nat} :
    ∀ {v : Json} {members : Members}, v.place? path = some (.obj members) →
      (v.mapMembers replace).place? path = some (.obj (mapMembersList replace members)) := by
  induction path with
  | nil =>
    intro v members h
    obtain rfl := Option.some.inj h
    simp [place?, mapMembers]
  | cons i path ih =>
    intro v members h
    cases v with
    | arr items =>
      obtain ⟨item, hitem, h⟩ := Option.bind_eq_some_iff.mp h
      rw [mapMembers, place?, getElem?_mapMembersItems, hitem]
      exact ih h
    | obj entries =>
      obtain ⟨entry, hentry, h⟩ := Option.bind_eq_some_iff.mp h
      rw [mapMembers, place?, getElem?_mapMembersList, hentry]
      -- A member that is walked into is an object or an array, and none of these is replaced.
      have hkept : replace entry.1 entry.2 = none := by
        cases path with
        | nil =>
          rw [Option.some.inj h]
          exact hobject _ _
        | cons j path =>
          by_contra hne
          rw [hnumber _ _ (Option.isSome_iff_ne_none.mpr hne)] at h
          cases h
      simpa [hkept] using ih h
    | null | bool _ | int _ | real _ | str _ => cases h

/-! ## Line numbers with a property -/

/-- Some member of a value that is called `line`, at any depth, has a property. -/
inductive HasLine (P : Json → Prop) : Json → Prop
  | here {members : Members} {v : Json} (mem : (("line" : Text), v) ∈ members) (holds : P v) :
      HasLine P (.obj members)
  | item {items : List Json} {v : Json} (mem : v ∈ items) (part : HasLine P v) :
      HasLine P (.arr items)
  | member {members : Members} {name : Text} {v : Json} (mem : (name, v) ∈ members)
      (part : HasLine P v) : HasLine P (.obj members)

theorem HasLine.mono {P Q : Json → Prop} (hPQ : ∀ v, P v → Q v) {v : Json} (h : HasLine P v) :
    HasLine Q v := by
  induction h with
  | here mem holds => exact .here mem (hPQ _ holds)
  | item mem _ ih => exact .item mem ih
  | member mem _ ih => exact .member mem ih

theorem hasLine_arr_iff {P : Json → Prop} {items : List Json} :
    HasLine P (.arr items) ↔ ∃ v ∈ items, HasLine P v := by
  constructor
  · rintro ⟨⟩
    exact ⟨_, ‹_›, ‹_›⟩
  · rintro ⟨v, mem, part⟩
    exact .item mem part

theorem hasLine_obj_iff {P : Json → Prop} {members : Members} :
    HasLine P (.obj members) ↔
      ∃ entry ∈ members, entry.1 = "line" ∧ P entry.2 ∨ HasLine P entry.2 := by
  constructor
  · intro h
    cases h with
    | here mem holds => exact ⟨_, mem, .inl ⟨rfl, holds⟩⟩
    | member mem part => exact ⟨_, mem, .inr part⟩
  · rintro ⟨⟨name, v⟩, mem, ⟨rfl, holds⟩ | part⟩
    · exact .here mem holds
    · exact .member mem part

/-- A value that is a real number. -/
def IsReal (v : Json) : Prop :=
  ∃ x, v = .real x

theorem hasRealLineMembers_cons (name : Text) (v : Json) (rest : Members) :
    hasRealLineMembers ((name, v) :: rest) = true ↔
      (name = "line" ∧ IsReal v ∨ v.hasRealLine = true) ∨ hasRealLineMembers rest = true := by
  cases v with
  | real x => simp [hasRealLineMembers, hasRealLine, IsReal]
  | null | bool _ | int _ | str _ | arr _ | obj _ => simp [hasRealLineMembers, IsReal]

mutual

/-- The test for real numbers among the lines finds them wherever they stand. -/
theorem hasRealLine_iff : ∀ v : Json, v.hasRealLine = true ↔ v.HasLine IsReal
  | .arr items => by rw [hasRealLine, hasLine_arr_iff, hasRealLineItems_iff items]
  | .obj members => by rw [hasRealLine, hasLine_obj_iff, hasRealLineMembers_iff members]
  | .null | .bool _ | .int _ | .real _ | .str _ => iff_of_false (by simp [hasRealLine]) nofun

theorem hasRealLineItems_iff : ∀ items : List Json,
    hasRealLineItems items = true ↔ ∃ v ∈ items, HasLine IsReal v
  | [] => by simp [hasRealLineItems]
  | v :: rest => by
    simp [hasRealLineItems, hasRealLine_iff v, hasRealLineItems_iff rest]

theorem hasRealLineMembers_iff : ∀ members : Members,
    hasRealLineMembers members = true ↔
      ∃ entry ∈ members, entry.1 = "line" ∧ IsReal entry.2 ∨ HasLine IsReal entry.2
  | [] => by simp [hasRealLineMembers]
  | (name, v) :: rest => by
    simp [hasRealLineMembers_cons, hasRealLine_iff v, hasRealLineMembers_iff rest]

end

/-- A replacement that only line numbers are subject to. -/
structure OnlyLines (replace : Text → Json → Option Json) : Prop where
  name : ∀ {name : Text} {v : Json}, name ≠ "line" → replace name v = none
  arr : ∀ (name : Text) (items : List Json), replace name (.arr items) = none
  obj : ∀ (name : Text) (members : Members), replace name (.obj members) = none

section OnlyLines

variable {f g : Text → Json → Option Json}

/-- Two replacements come to different line numbers. -/
def Differ (f g : Text → Json → Option Json) (n : Json) : Prop :=
  (f "line" n).getD n ≠ (g "line" n).getD n

theorem mapMember_eq_iff (hf : OnlyLines f) (hg : OnlyLines g) {v : Json}
    (ih : mapMembers f v = mapMembers g v ↔ ¬ HasLine (Differ f g) v) (name : Text) :
    (f name v).getD (mapMembers f v) = (g name v).getD (mapMembers g v) ↔
      ¬ (name = "line" ∧ Differ f g v ∨ HasLine (Differ f g) v) := by
  by_cases hname : name = "line"
  · subst hname
    cases v with
    | arr items => simp [hf.arr, hg.arr, Differ, ih]
    | obj members => simp [hf.obj, hg.obj, Differ, ih]
    | null | bool _ | int _ | real _ | str _ =>
      rw [or_iff_left nofun]
      simp [mapMembers, Differ]
  · simp [hf.name hname, hg.name hname, hname, ih]

mutual

/-- Two replacements of line numbers come to the same value exactly if they agree on every line
number in it. -/
theorem mapMembers_eq_iff (hf : OnlyLines f) (hg : OnlyLines g) : ∀ v : Json,
    mapMembers f v = mapMembers g v ↔ ¬ HasLine (Differ f g) v
  | .arr items => by
    rw [hasLine_arr_iff, ← mapMembersItems_eq_iff hf hg items]
    simp [mapMembers]
  | .obj members => by
    rw [hasLine_obj_iff, ← mapMembersList_eq_iff hf hg members]
    simp [mapMembers]
  | .null | .bool _ | .int _ | .real _ | .str _ => iff_of_true (by simp [mapMembers]) nofun

theorem mapMembersItems_eq_iff (hf : OnlyLines f) (hg : OnlyLines g) : ∀ items : List Json,
    mapMembersItems f items = mapMembersItems g items ↔
      ¬ ∃ v ∈ items, HasLine (Differ f g) v
  | [] => by simp [mapMembersItems]
  | v :: rest => by
    simp [mapMembersItems, mapMembers_eq_iff hf hg v, mapMembersItems_eq_iff hf hg rest]

theorem mapMembersList_eq_iff (hf : OnlyLines f) (hg : OnlyLines g) : ∀ members : Members,
    mapMembersList f members = mapMembersList g members ↔
      ¬ ∃ entry ∈ members, entry.1 = "line" ∧ Differ f g entry.2 ∨ HasLine (Differ f g) entry.2
  | [] => by simp [mapMembersList]
  | (name, v) :: rest => by
    have hmember := mapMember_eq_iff hf hg (mapMembers_eq_iff hf hg v) name
    simp only [mapMembersList, List.cons.injEq, Prod.mk.injEq, true_and, hmember,
      mapMembersList_eq_iff hf hg rest, List.mem_cons, exists_eq_or_imp, not_or]

end

end OnlyLines

/-! ## Offsets that come to the same -/

/-- The new value of a member when lines move by an offset, which may be zero. -/
def movedLine? (offset : Int) : Text → Json → Option Json :=
  if offset = 0 then fun _ _ => none else shiftLine? offset

/-- A line number that moved by an offset. -/
def movedLine (offset : Int) (n : Json) : Json :=
  (movedLine? offset "line" n).getD n

/-- An integer moved by an offset, unless that would make it negative. -/
theorem movedLine_int_eq (offset n : Int) :
    movedLine offset (.int n) = .int (if 0 ≤ n + offset then n + offset else n) := by
  unfold movedLine movedLine?
  split
  · rename_i hzero
    simp [hzero]
  · by_cases hsum : 0 ≤ n + offset
    · simp [shiftLine?, addOffset?, hsum]
    · simp [shiftLine?, addOffset?, hsum]

theorem movedLine_int {offset n : Int} (h : 0 ≤ n + offset) :
    movedLine offset (.int n) = .int (n + offset) := by
  rw [movedLine_int_eq, if_pos h]

theorem onlyLines_movedLine? (offset : Int) : OnlyLines (movedLine? offset) := by
  unfold movedLine?
  split
  · exact ⟨fun _ => rfl, fun _ _ => rfl, fun _ _ => rfl⟩
  · refine ⟨fun hname => if_neg hname, fun name items => ?_, fun name members => ?_⟩
    · simp [shiftLine?, addOffset?]
    · simp [shiftLine?, addOffset?]

/-- Only numbers are line numbers, and a line number that moved is still a number. -/
theorem movedLine?_cases (offset : Int) (name : Text) (v : Json) :
    movedLine? offset name v = none ∨ (∃ n m, v = .int n ∧ movedLine? offset name v = some (.int m)) ∨
      ∃ x y, v = .real x ∧ movedLine? offset name v = some (.real y) := by
  unfold movedLine?
  split
  · exact .inl rfl
  · unfold shiftLine?
    split
    · cases v with
      | int n =>
        rw [addOffset?]
        split
        · exact .inr (.inl ⟨n, _, rfl, rfl⟩)
        · exact .inl rfl
      | real x =>
        rw [addOffset?]
        split
        · exact .inr (.inr ⟨x, _, rfl, rfl⟩)
        · exact .inl rfl
      | null | bool _ | str _ | arr _ | obj _ => exact .inl rfl
    · exact .inl rfl

mutual

theorem mapMembers_none : ∀ v : Json, mapMembers (fun _ _ => none) v = v
  | .arr items => by rw [mapMembers, mapMembersItems_none items]
  | .obj members => by rw [mapMembers, mapMembersList_none members]
  | .null | .bool _ | .int _ | .real _ | .str _ => by simp [mapMembers]

theorem mapMembersItems_none : ∀ items : List Json,
    mapMembersItems (fun _ _ => none) items = items
  | [] => rfl
  | v :: rest => by rw [mapMembersItems, mapMembers_none v, mapMembersItems_none rest]

theorem mapMembersList_none : ∀ members : Members,
    mapMembersList (fun _ _ => none) members = members
  | [] => rfl
  | (name, v) :: rest => by
    rw [mapMembersList, mapMembers_none v, mapMembersList_none rest, Option.getD_none]

end

theorem shiftLines_eq_mapMembers (offset : Int) (v : Json) :
    v.shiftLines offset = v.mapMembers (movedLine? offset) := by
  unfold shiftLines movedLine?
  split
  · exact (mapMembers_none v).symm
  · rfl

/-- What is walked into is no line number. -/
theorem place?_of_movedLine? {offset : Int} {name : Text} {v : Json}
    (h : (movedLine? offset name v).isSome) (i : Nat) (path : List Nat) :
    v.place? (i :: path) = none := by
  rcases movedLine?_cases offset name v with hnone | ⟨n, m, rfl, -⟩ | ⟨x, y, rfl, -⟩
  · rw [hnone] at h
    cases h
  · rfl
  · rfl

/-- Two offsets move the lines of a value alike exactly if they move every line number in it
alike. -/
theorem shiftLines_eq_iff (offset other : Int) (v : Json) :
    v.shiftLines offset = v.shiftLines other ↔
      ¬ v.HasLine fun n => movedLine offset n ≠ movedLine other n := by
  rw [shiftLines_eq_mapMembers, shiftLines_eq_mapMembers]
  exact mapMembers_eq_iff (onlyLines_movedLine? offset) (onlyLines_movedLine? other) v

/-- Lines stay where they are exactly if none of them moves. -/
theorem shiftLines_eq_self_iff (offset : Int) (v : Json) :
    v.shiftLines offset = v ↔ ¬ v.HasLine fun n => movedLine offset n ≠ n := by
  have hzero : v.shiftLines 0 = v := if_pos rfl
  have := shiftLines_eq_iff offset 0 v
  rwa [hzero] at this

/-- A line number that is an integer and no less than zero. -/
def IsRow (n : Json) : Prop :=
  ∃ k : Int, 0 ≤ k ∧ n = .int k

/-- From where a line has come to the offset can be read off. -/
theorem shiftLines_injective {v : Json} (hv : v.HasLine IsRow) {offset other : Int}
    (hoffset : 0 ≤ offset) (hother : 0 ≤ other)
    (h : v.shiftLines offset = v.shiftLines other) : offset = other := by
  by_contra hne
  refine (shiftLines_eq_iff offset other v).mp h (hv.mono ?_)
  rintro n ⟨k, hk, rfl⟩
  rw [movedLine_int (Int.add_nonneg hk hoffset), movedLine_int (Int.add_nonneg hk hother)]
  intro heq
  have := Json.int.inj heq
  omega

/-! ## The members of an object -/

/-- The members of an object with their lines moved. -/
def shiftMembers (offset : Int) (members : Members) : Members :=
  mapMembersList (movedLine? offset) members

theorem shiftLines_obj (offset : Int) (members : Members) :
    (obj members).shiftLines offset = obj (shiftMembers offset members) := by
  rw [shiftLines_eq_mapMembers, mapMembers, shiftMembers]

theorem place?_shiftLines (offset : Int) {path : List Nat} {v : Json} {members : Members}
    (h : v.place? path = some (.obj members)) :
    (v.shiftLines offset).place? path = some (.obj (shiftMembers offset members)) := by
  rw [shiftLines_eq_mapMembers]
  exact place?_mapMembers (fun _ _ => place?_of_movedLine?) (onlyLines_movedLine? offset).obj h

theorem getElem?_shiftMembers_line {offset : Int} {members : Members} {i : Nat} {n : Int}
    (h : members[i]? = some (("line" : Text), .int n)) :
    (shiftMembers offset members)[i]?
      = some (("line" : Text), .int (if 0 ≤ n + offset then n + offset else n)) := by
  rw [← movedLine_int_eq, shiftMembers, getElem?_mapMembersList, h, movedLine]
  simp [mapMembers]

/-- Shifting moves every line. -/
theorem linesMoved_shiftLines (offset : Int) (v : Json) :
    LinesMoved offset v (v.shiftLines offset) := by
  intro path members hplace
  refine ⟨_, place?_shiftLines offset hplace, fun i n hline => ⟨fun hsum => ?_, fun hsum => ?_⟩⟩
  · rw [getElem?_shiftMembers_line hline, if_pos hsum]
  · rw [getElem?_shiftMembers_line hline, if_neg (Int.not_le.mpr hsum)]

theorem get?_shiftMembers_eq (offset : Int) (name : Text) (members : Members) :
    get? name (shiftMembers offset members) = (get? name members).map fun v =>
      (movedLine? offset name v).getD (v.shiftLines offset) := by
  induction members with
  | nil => rfl
  | cons entry rest ih =>
    obtain ⟨key, v⟩ := entry
    rw [shiftMembers, mapMembersList, get?, get?]
    split
    · rename_i hkey
      rw [hkey, Option.map_some, shiftLines_eq_mapMembers]
    · exact ih

theorem get?_shiftMembers (offset : Int) {name : Text} (hname : name ≠ "line")
    (members : Members) :
    get? name (shiftMembers offset members) = (get? name members).map (shiftLines offset) := by
  rw [get?_shiftMembers_eq]
  congr 1
  funext v
  rw [(onlyLines_movedLine? offset).name hname, Option.getD_none]

theorem member?_shiftLines (offset : Int) {name : Text} (hname : name ≠ "line") (v : Json) :
    (v.shiftLines offset).member? name = (v.member? name).map (shiftLines offset) := by
  cases v with
  | obj members => rw [shiftLines_obj, member?, get?_shiftMembers offset hname, member?]
  | null | bool _ | int _ | real _ | str _ | arr _ =>
    simp [shiftLines_eq_mapMembers, mapMembers, member?]

end SfcProxy.Json
