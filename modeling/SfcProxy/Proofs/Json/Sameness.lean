import Mathlib.Data.List.Forall2
import SfcProxy.Proofs.Json.Path
import SfcProxy.Proofs.Session.Readable

/-!
# The same value but for some places

Two values are the same but for some places if they have the same members in the same order and
arrays of the same lengths, wherever one looks, and the same scalars, except at the places where a
difference is allowed. Moving lines is of this kind: it keeps everything but numbers that are called
`line`.

## Main definitions

* `Json.SameBut`: two values are the same but for what may differ
* `Json.Number`, `Json.OnLine`: numbers, and the places of line numbers

## Main results

* `Json.SameMembers.set`: a member that may differ may be set
* `Json.sameBut_shiftLines`: moving lines changes nothing but line numbers
-/

namespace SfcProxy.Json

/-- What may differ: a relation between what stands at a place before and afterwards. -/
abbrev Freedom := List Step → Json → Json → Prop

/-- Two values are the same but for what may differ; `path` is where they stand. -/
inductive SameBut (free : Freedom) : List Step → Json → Json → Prop
  | free {path : List Step} {v w : Json} (allowed : free path v w) : SameBut free path v w
  | same (path : List Step) (v : Json) : SameBut free path v v
  | arr {path : List Step} {items others : List Json} (length : others.length = items.length)
      (parts : ∀ (i : Nat) (v w : Json), items[i]? = some v → others[i]? = some w →
        SameBut free (path ++ [.item i]) v w) :
      SameBut free path (.arr items) (.arr others)
  | obj {path : List Step} {members others : Members}
      (names : others.map (·.1) = members.map (·.1))
      (parts : ∀ (i : Nat) (name : Text) (v w : Json), members[i]? = some (name, v) →
        others[i]? = some (name, w) → SameBut free (path ++ [.member name]) v w) :
      SameBut free path (.obj members) (.obj others)

variable {free more : Freedom} {path : List Step}

/-- What is the same but for some places is the same but for more of them. -/
theorem SameBut.mono (hfree : ∀ path v w, free path v w → more path v w) {v w : Json}
    (h : SameBut free path v w) : SameBut more path v w := by
  induction h with
  | free allowed => exact .free (hfree _ _ _ allowed)
  | same path v => exact .same path v
  | arr length _ ih => exact .arr length ih
  | obj names _ ih => exact .obj names ih

/-! ## Members -/

/-- Members that stand for one another, one by one. -/
def SameMembers (free : Freedom) (path : List Step) : Members → Members → Prop :=
  List.Forall₂ fun entry other => other.1 = entry.1 ∧
    SameBut free (path ++ [.member entry.1]) entry.2 other.2

theorem SameMembers.refl (members : Members) : SameMembers free path members members :=
  List.forall₂_same.mpr fun entry _ => ⟨rfl, .same _ entry.2⟩

theorem SameMembers.sameBut {members others : Members} (h : SameMembers free path members others) :
    SameBut free path (.obj members) (.obj others) := by
  refine .obj ?_ fun i name v w hv hw => ?_
  · induction h with
    | nil => rfl
    | cons hentry _ ih => rw [List.map_cons, List.map_cons, hentry.1, ih]
  · obtain ⟨hi, hv⟩ := List.getElem?_eq_some_iff.mp hv
    obtain ⟨hi', hw⟩ := List.getElem?_eq_some_iff.mp hw
    have hentry := h.get hi hi'
    rw [List.get_eq_getElem, List.get_eq_getElem, hv, hw] at hentry
    exact hentry.2

/-- A member may be set to what may take the place of its value. -/
theorem SameMembers.set {members others : Members} (h : SameMembers free path members others)
    {name : Text} {v w : Json} (hget : get? name members = some v)
    (hvalue : SameBut free (path ++ [.member name]) v w) :
    SameMembers free path members (Json.set name w others) := by
  induction h with
  | nil => cases hget
  | @cons entry other rest others hentry hrest ih =>
    obtain ⟨key, old⟩ := entry
    obtain ⟨key', old'⟩ := other
    obtain ⟨rfl, hold⟩ := hentry
    rw [get?] at hget
    rw [Json.set]
    by_cases hkey : key' = name
    · rw [if_pos hkey] at hget ⊢
      cases hget
      subst hkey
      exact .cons ⟨rfl, hvalue⟩ hrest
    · rw [if_neg hkey] at hget ⊢
      exact .cons ⟨rfl, hold⟩ (ih hget)

/-! ## Lines -/

/-- A value that is a number. -/
inductive Number : Json → Prop
  | int (n : Int) : Number (.int n)
  | real (x : Double) : Number (.real x)

/-- A number in the place of a number that is called `line`. -/
inductive OnLine : Freedom
  | line (path : List Step) {v w : Json} (before : Number v) (after : Number w) :
      OnLine (path ++ [.member "line"]) v w

theorem sameBut_movedLine? {offset : Int} {name : Text} {v w : Json}
    (h : movedLine? offset name v = some w) (path : List Step) :
    SameBut OnLine (path ++ [.member name]) v w := by
  have hname : name = "line" := by
    by_contra hne
    rw [(onlyLines_movedLine? offset).name hne] at h
    cases h
  subst hname
  rcases movedLine?_cases offset "line" v with hnone | ⟨n, m, rfl, hsome⟩ | ⟨x, y, rfl, hsome⟩
  · rw [hnone] at h
    cases h
  · rw [hsome] at h
    cases h
    exact .free (.line path (.int n) (.int m))
  · rw [hsome] at h
    cases h
    exact .free (.line path (.real x) (.real y))

mutual

theorem sameBut_mapMembers (offset : Int) : ∀ (v : Json) (path : List Step),
    SameBut OnLine path v (v.mapMembers (movedLine? offset))
  | .arr items, path => by
    rw [mapMembers]
    refine .arr ?_ fun i v w hv hw => ?_
    · rw [mapMembersItems_eq_map, List.length_map]
    · rw [getElem?_mapMembersItems, hv] at hw
      cases hw
      exact sameButItems_mapMembers offset items v (List.mem_of_getElem? hv) _
  | .obj members, path => by
    rw [mapMembers]
    exact (sameMembers_mapMembers offset members path).sameBut
  | .null, path | .bool _, path | .int _, path | .real _, path | .str _, path => by
    rw [mapMembers]
    · exact .same path _
    all_goals nofun

theorem sameButItems_mapMembers (offset : Int) : ∀ (items : List Json) (w : Json), w ∈ items →
    ∀ path : List Step, SameBut OnLine path w (w.mapMembers (movedLine? offset))
  | v :: _, _, .head _, path => sameBut_mapMembers offset v path
  | _ :: rest, w, .tail _ hw, path => sameButItems_mapMembers offset rest w hw path

theorem sameMembers_mapMembers (offset : Int) : ∀ (members : Members) (path : List Step),
    SameMembers OnLine path members (mapMembersList (movedLine? offset) members)
  | [], _ => .nil
  | (name, v) :: rest, path => by
    rw [mapMembersList]
    refine .cons ⟨rfl, ?_⟩ (sameMembers_mapMembers offset rest path)
    cases hmoved : movedLine? offset name v with
    | none => exact sameBut_mapMembers offset v _
    | some w => exact sameBut_movedLine? hmoved path

end

/-- Moving lines changes nothing but line numbers. -/
theorem sameBut_shiftLines (offset : Int) (v : Json) (path : List Step) :
    SameBut OnLine path v (v.shiftLines offset) := by
  rw [shiftLines_eq_mapMembers]
  exact sameBut_mapMembers offset v path

end SfcProxy.Json
