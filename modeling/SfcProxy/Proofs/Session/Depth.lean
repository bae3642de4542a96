import SfcProxy.Proofs.Json.Lines
import SfcProxy.Session.Basic

/-!
# How deep a message may nest

Whoever moves the lines of a message walks through all of it, and so runs out of calls if it nests
too deep. That and an offset beyond all real numbers are the only ways in which moving lines fails.

## Main definitions

* `Session.Unmovable`: why the lines of a message cannot be moved

## Main results

* `Json.depth_shiftLines`: a value does not get deeper when its lines move
* `Session.moveLines_cases`, `Session.moveLines_eq_ok_iff`: lines move, or they cannot be moved
* `Session.Unmovable.of_set`, `Session.Unmovable.set`: a member that does not nest makes no difference
-/

namespace SfcProxy

/-! ## Depth and lines -/

namespace Json

theorem depth_shiftMember (offset : Int) (name : Text) {v : Json}
    (ih : (v.mapMembers (movedLine? offset)).depth = v.depth) :
    ((movedLine? offset name v).getD (v.mapMembers (movedLine? offset))).depth = v.depth := by
  rcases movedLine?_cases offset name v with h | ⟨n, m, rfl, h⟩ | ⟨x, y, rfl, h⟩
  · rw [h, Option.getD_none, ih]
  · rw [h]
    rfl
  · rw [h]
    rfl

mutual

theorem depth_mapMembers (offset : Int) : ∀ v : Json,
    (v.mapMembers (movedLine? offset)).depth = v.depth
  | .arr items => by rw [mapMembers, depth, depth, depthItems_mapMembers offset items]
  | .obj members => by rw [mapMembers, depth, depth, depthMembers_mapMembers offset members]
  | .null | .bool _ | .int _ | .real _ | .str _ => by simp [mapMembers]

theorem depthItems_mapMembers (offset : Int) : ∀ items : List Json,
    depthItems (mapMembersItems (movedLine? offset) items) = depthItems items
  | [] => rfl
  | v :: rest => by
    rw [mapMembersItems, depthItems, depth_mapMembers offset v, depthItems_mapMembers offset rest,
      depthItems]

theorem depthMembers_mapMembers (offset : Int) : ∀ members : Members,
    depthMembers (mapMembersList (movedLine? offset) members) = depthMembers members
  | [] => rfl
  | (name, v) :: rest => by
    rw [mapMembersList, depthMembers, depth_shiftMember offset name (depth_mapMembers offset v),
      depthMembers_mapMembers offset rest, depthMembers]

end

/-- A value does not get deeper when its lines move. -/
theorem depth_shiftLines (offset : Int) (v : Json) : (v.shiftLines offset).depth = v.depth := by
  rw [shiftLines_eq_mapMembers, depth_mapMembers]

/-! ## Members that do not nest -/

section Scalar

variable {name : Text} {v : Json} {members : Members}

theorem hasRealLine_of_depth (h : v.depth = 0) : v.hasRealLine = false := by
  cases v with
  | arr items => cases h
  | obj members => cases h
  | null | bool _ | int _ | real _ | str _ => simp [hasRealLine]

theorem depthMembers_set_le (hv : v.depth = 0) :
    depthMembers (set name v members) ≤ depthMembers members := by
  induction members with
  | nil => simp [set, depthMembers, hv]
  | cons entry rest ih =>
    obtain ⟨key, old⟩ := entry
    rw [set]
    split
    · rw [depthMembers, depthMembers, hv]
      omega
    · rw [depthMembers, depthMembers]
      omega

theorem le_depthMembers_set (hold : ∀ old, get? name members = some old → old.depth = 0) :
    depthMembers members ≤ depthMembers (set name v members) := by
  induction members with
  | nil => exact Nat.zero_le _
  | cons entry rest ih =>
    obtain ⟨key, old⟩ := entry
    rw [get?] at hold
    rw [set]
    split
    · rename_i hkey
      rw [if_pos hkey] at hold
      rw [depthMembers, depthMembers, hold old rfl]
      omega
    · rename_i hkey
      rw [if_neg hkey] at hold
      have := ih hold
      rw [depthMembers, depthMembers]
      omega

theorem hasRealLineMembers_of_set (hname : name ≠ "line") (hv : v.depth = 0)
    (h : hasRealLineMembers (set name v members) = true) : hasRealLineMembers members = true := by
  have hnone : ¬ (name = "line" ∧ IsReal v ∨ v.hasRealLine = true) := by
    rw [hasRealLine_of_depth hv]
    rintro (⟨hline, -⟩ | hfalse)
    · exact hname hline
    · cases hfalse
  induction members with
  | nil => exact ((hasRealLineMembers_cons name v []).mp h).resolve_left hnone
  | cons entry rest ih =>
    obtain ⟨key, old⟩ := entry
    rw [set] at h
    rw [hasRealLineMembers_cons]
    split at h
    · rename_i hkey
      rw [hasRealLineMembers_cons, hkey] at h
      exact .inr (h.resolve_left hnone)
    · rw [hasRealLineMembers_cons] at h
      exact h.imp_right ih

theorem hasRealLineMembers_set (hname : name ≠ "line")
    (hold : ∀ old, get? name members = some old → old.depth = 0)
    (h : hasRealLineMembers members = true) : hasRealLineMembers (set name v members) = true := by
  induction members with
  | nil => cases h
  | cons entry rest ih =>
    obtain ⟨key, old⟩ := entry
    rw [get?] at hold
    rw [hasRealLineMembers_cons] at h
    rw [set]
    split
    · rename_i hkey
      rw [if_pos hkey] at hold
      rw [hkey, hasRealLine_of_depth (hold old rfl)] at h
      rw [hasRealLineMembers_cons]
      refine .inr (h.resolve_left ?_)
      rintro (⟨hline, -⟩ | hfalse)
      · exact hname hline
      · cases hfalse
    · rename_i hkey
      rw [if_neg hkey] at hold
      rw [hasRealLineMembers_cons]
      exact h.imp_right (ih hold)

end Scalar

end Json

/-! ## Moving lines -/

namespace Session

/-- Why the lines of a message cannot be moved by an offset. -/
inductive Unmovable (s : Session) (offset : Int) (message : Members) : Fault → Prop
  | nesting (moves : offset ≠ 0) (deep : s.limits.shifting < (Json.obj message).depth) :
      Unmovable s offset message .nesting
  | offset {e : Json.OffsetError} (large : Json.isBeyondReals offset = true)
      (real : (Json.obj message).hasRealLine = true) : Unmovable s offset message (.offset e)

/-- Whether lines can be moved depends on the limits of a session and on nothing else in it. -/
theorem Unmovable.of_limits {s t : Session} {offset : Int} {message : Members} {e : Fault}
    (h : s.Unmovable offset message e) (hlimits : t.limits = s.limits) :
    t.Unmovable offset message e := by
  cases h with
  | nesting moves deep => exact .nesting moves (hlimits ▸ deep)
  | offset large real => exact .offset large real

theorem moveLines_of_limits {s t : Session} (h : t.limits = s.limits) (offset : Int)
    (message : Members) : t.moveLines offset message = s.moveLines offset message := by
  rw [moveLines, h, moveLines]

/-- The lines of a message move, or they cannot be moved. -/
theorem moveLines_cases (s : Session) (offset : Int) (message : Members) :
    (∃ e, s.Unmovable offset message e ∧ s.moveLines offset message = .error e) ∨
      s.moveLines offset message = .ok (Json.shiftMembers offset message) := by
  unfold moveLines Json.shiftLinesWithin
  split
  · rename_i hdeep
    exact .inl ⟨_, .nesting hdeep.1 hdeep.2, rfl⟩
  · by_cases hbeyond : (Json.isBeyondReals offset && (Json.obj message).hasRealLine) = true
    · rw [if_pos hbeyond]
      obtain ⟨hlarge, hreal⟩ := (Bool.and_eq_true _ _).mp hbeyond
      exact .inl ⟨_, .offset hlarge hreal, rfl⟩
    · rw [if_neg hbeyond, Json.shiftLines_obj]
      exact .inr rfl

/-- Lines move exactly if nothing is in the way. -/
theorem moveLines_eq_ok_iff {s : Session} {offset : Int} {message moved : Members} :
    s.moveLines offset message = .ok moved ↔
      (∀ e, ¬ s.Unmovable offset message e) ∧ moved = Json.shiftMembers offset message := by
  constructor
  · intro h
    constructor
    · rintro e (⟨moves, deep⟩ | ⟨large, real⟩)
      · rw [moveLines, if_pos ⟨moves, deep⟩] at h
        cases h
      · rw [moveLines, Json.shiftLinesWithin, large, real] at h
        split at h <;> cases h
    · rcases moveLines_cases s offset message with ⟨e, -, herror⟩ | hok
      · rw [herror] at h
        cases h
      · rw [hok] at h
        exact (Except.ok.inj h).symm
  · rintro ⟨hmovable, rfl⟩
    exact (moveLines_cases s offset message).resolve_left fun ⟨e, he, _⟩ => hmovable e he

section Set

variable {s : Session} {offset : Int} {message : Members} {e : Fault} {name : Text} {v : Json}

/-- A member that does not nest is not in the way of lines. -/
theorem Unmovable.of_set (hname : name ≠ "line") (hv : v.depth = 0)
    (h : s.Unmovable offset (Json.set name v message) e) : s.Unmovable offset message e := by
  cases h with
  | nesting moves deep =>
    rw [Json.depth] at deep
    have : Json.depthMembers (Json.set name v message) ≤ Json.depthMembers message :=
      Json.depthMembers_set_le hv
    refine .nesting moves ?_
    rw [Json.depth]
    omega
  | offset large real => exact .offset large (Json.hasRealLineMembers_of_set hname hv real)

/-- Nor was it in the way before another value took its place. -/
theorem Unmovable.set (hname : name ≠ "line")
    (hold : ∀ old, Json.get? name message = some old → old.depth = 0)
    (h : s.Unmovable offset message e) : s.Unmovable offset (Json.set name v message) e := by
  cases h with
  | nesting moves deep =>
    rw [Json.depth] at deep
    have : Json.depthMembers message ≤ Json.depthMembers (Json.set name v message) :=
      Json.le_depthMembers_set hold
    refine .nesting moves ?_
    rw [Json.depth]
    omega
  | offset large real => exact .offset large (Json.hasRealLineMembers_set hname hold real)

end Set

end Session

end SfcProxy
