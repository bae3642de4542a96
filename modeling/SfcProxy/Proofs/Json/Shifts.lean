import SfcProxy.Proofs.Json.Sameness

/-!
# Lines that are moved twice

A number that takes the place of a line number has no members that a second walk could replace. So
two walks over a value are a single one, in which each line number is replaced twice. Two moves
come to the same as a third one exactly if they do so on every line number, wherever it stands.

A move leaves a line alone that it would make negative. So a line is given back by a move up and the
same move down if both of them move it, or neither does. A line that is no less than zero is moved
down by every offset, and what it has come to is moved again, up or down, as long as the two moves
together lead down.

## Main definitions

* `Json.andThen`: two replacements, one after the other
* `Json.IsBetween`: a line number that is an integer between two bounds

## Main results

* `Json.mapMembers_mapMembers`: two walks are one
* `Json.shiftLines_shiftLines_eq_iff`: when two moves come to the same as a third
* `Json.shifted_back_iff`: the values that a move up and one down give back
* `Json.shifts_compose`: a move down and another move are one move
-/

namespace SfcProxy.Json

/-! ## Lines without a property -/

/-- If no line has a property, a line with another one is without it. -/
theorem HasLine.without {P Q : Json → Prop} {v : Json} (h : HasLine P v) (hQ : ¬ HasLine Q v) :
    HasLine (fun n => P n ∧ ¬ Q n) v := by
  induction h with
  | here mem holds => exact .here mem ⟨holds, fun hn => hQ (.here mem hn)⟩
  | item mem _ ih => exact .item mem (ih fun hv => hQ (.item mem hv))
  | member mem _ ih => exact .member mem (ih fun hv => hQ (.member mem hv))

/-! ## One walk after another -/

section Walks

variable {f g : Text → Json → Option Json}

/-- What a member becomes that is subject to two replacements, one after the other. -/
def andThen (f g : Text → Json → Option Json) (name : Text) (v : Json) : Option Json :=
  match f name v with
  | some w => some ((g name w).getD w)
  | none => g name v

theorem getD_andThen (name : Text) (v : Json) :
    (andThen f g name v).getD v = (g name ((f name v).getD v)).getD ((f name v).getD v) := by
  unfold andThen
  split
  · rename_i w hw
    rw [hw, Option.getD_some, Option.getD_some]
  · rename_i hnone
    rw [hnone, Option.getD_none]

theorem OnlyLines.andThen (hf : OnlyLines f) (hg : OnlyLines g) :
    OnlyLines (Json.andThen f g) := by
  constructor
  · intro name v hname
    rw [Json.andThen, hf.name hname]
    exact hg.name hname
  · intro name items
    rw [Json.andThen, hf.arr]
    exact hg.arr name items
  · intro name members
    rw [Json.andThen, hf.obj]
    exact hg.obj name members

theorem mapMember_mapMember (hg : OnlyLines g)
    (hflat : ∀ {name v w}, f name v = some w → mapMembers g w = w) {v : Json}
    (ih : mapMembers g (mapMembers f v) = mapMembers (andThen f g) v) (name : Text) :
    (g name ((f name v).getD (mapMembers f v))).getD
        (mapMembers g ((f name v).getD (mapMembers f v)))
      = (andThen f g name v).getD (mapMembers (andThen f g) v) := by
  cases hv : f name v with
  | some w => simp [andThen, hv, hflat hv]
  | none =>
    have hg' : g name (mapMembers f v) = g name v := by
      cases v with
      | arr items => rw [mapMembers, hg.arr, hg.arr]
      | obj members => rw [mapMembers, hg.obj, hg.obj]
      | null | bool _ | int _ | real _ | str _ => simp [mapMembers]
    simp [andThen, hv, hg', ih]

mutual

/-- Two walks are one, if what the first one puts in is not walked into. -/
theorem mapMembers_mapMembers (hf : OnlyLines f) (hg : OnlyLines g)
    (hflat : ∀ {name v w}, f name v = some w → mapMembers g w = w) : ∀ v : Json,
    mapMembers g (mapMembers f v) = mapMembers (andThen f g) v
  | .arr items => by simp [mapMembers, mapMembersItems_mapMembersItems hf hg hflat items]
  | .obj members => by simp [mapMembers, mapMembersList_mapMembersList hf hg hflat members]
  | .null | .bool _ | .int _ | .real _ | .str _ => by simp [mapMembers]

theorem mapMembersItems_mapMembersItems (hf : OnlyLines f) (hg : OnlyLines g)
    (hflat : ∀ {name v w}, f name v = some w → mapMembers g w = w) : ∀ items : List Json,
    mapMembersItems g (mapMembersItems f items) = mapMembersItems (andThen f g) items
  | [] => rfl
  | v :: rest => by
    simp [mapMembersItems, mapMembers_mapMembers hf hg hflat v,
      mapMembersItems_mapMembersItems hf hg hflat rest]

theorem mapMembersList_mapMembersList (hf : OnlyLines f) (hg : OnlyLines g)
    (hflat : ∀ {name v w}, f name v = some w → mapMembers g w = w) : ∀ members : Members,
    mapMembersList g (mapMembersList f members) = mapMembersList (andThen f g) members
  | [] => rfl
  | (name, v) :: rest => by
    have hmember :=
      mapMember_mapMember hg hflat (mapMembers_mapMembers hf hg hflat v) name
    simp only [mapMembersList, hmember, mapMembersList_mapMembersList hf hg hflat rest]

end

end Walks

/-! ## One move after another -/

/-- A line number that moved is a number, in which there is nothing to replace. -/
theorem mapMembers_of_movedLine? {g : Text → Json → Option Json} {offset : Int} {name : Text}
    {v w : Json} (h : movedLine? offset name v = some w) : mapMembers g w = w := by
  rcases movedLine?_cases offset name v with hnone | ⟨n, m, -, hsome⟩ | ⟨x, y, -, hsome⟩
  · rw [hnone] at h
    cases h
  · rw [hsome] at h
    cases h
    simp [mapMembers]
  · rw [hsome] at h
    cases h
    simp [mapMembers]

/-- Two moves come to the same as a third exactly if they do so on every line number. -/
theorem shiftLines_shiftLines_eq_iff (first second whole : Int) (v : Json) :
    (v.shiftLines first).shiftLines second = v.shiftLines whole ↔
      ¬ v.HasLine fun n => movedLine second (movedLine first n) ≠ movedLine whole n := by
  have hfirst := onlyLines_movedLine? first
  have hsecond := onlyLines_movedLine? second
  have hline : ∀ n, Differ (andThen (movedLine? first) (movedLine? second)) (movedLine? whole) n
      ↔ movedLine second (movedLine first n) ≠ movedLine whole n := by
    intro n
    rw [Differ, getD_andThen]
    rfl
  rw [shiftLines_eq_mapMembers, shiftLines_eq_mapMembers, shiftLines_eq_mapMembers whole,
    mapMembers_mapMembers hfirst hsecond mapMembers_of_movedLine?,
    mapMembers_eq_iff (hfirst.andThen hsecond) (onlyLines_movedLine? whole)]
  exact not_congr ⟨HasLine.mono fun n => (hline n).mp, HasLine.mono fun n => (hline n).mpr⟩

/-! ## Real numbers -/

theorem isReal_shiftMember_iff (offset : Int) (name : Text) (v : Json) :
    IsReal (shiftMember offset name v) ↔ IsReal v := by
  rcases shiftMember_cases offset name v with h | ⟨n, m, rfl, h⟩ | ⟨x, y, rfl, h⟩
  · rw [h]
    cases v <;> simp [IsReal, mapMembers]
  · rw [h]
    simp [IsReal]
  · rw [h]
    simp [IsReal]

theorem hasRealLine_shiftMember (offset : Int) (name : Text) {v : Json}
    (ih : (v.mapMembers (movedLine? offset)).hasRealLine = v.hasRealLine) :
    (shiftMember offset name v).hasRealLine = v.hasRealLine := by
  rcases shiftMember_cases offset name v with h | ⟨n, m, rfl, h⟩ | ⟨x, y, rfl, h⟩
  · rw [h, ih]
  · rw [h]
    simp [hasRealLine]
  · rw [h]
    simp [hasRealLine]

mutual

theorem hasRealLine_mapMembers (offset : Int) : ∀ v : Json,
    (v.mapMembers (movedLine? offset)).hasRealLine = v.hasRealLine
  | .arr items => by
    rw [mapMembers, hasRealLine, hasRealLine, hasRealLineItems_mapMembers offset items]
  | .obj members => by
    rw [mapMembers, hasRealLine, hasRealLine, hasRealLineMembers_mapMembers offset members]
  | .null | .bool _ | .int _ | .real _ | .str _ => by simp [mapMembers]

theorem hasRealLineItems_mapMembers (offset : Int) : ∀ items : List Json,
    hasRealLineItems (mapMembersItems (movedLine? offset) items) = hasRealLineItems items
  | [] => rfl
  | v :: rest => by
    rw [mapMembersItems, hasRealLineItems, hasRealLineItems, hasRealLine_mapMembers offset v,
      hasRealLineItems_mapMembers offset rest]

theorem hasRealLineMembers_mapMembers (offset : Int) : ∀ members : Members,
    hasRealLineMembers (mapMembersList (movedLine? offset) members) = hasRealLineMembers members
  | [] => rfl
  | (name, v) :: rest => by
    have hpart := hasRealLine_shiftMember offset name (hasRealLine_mapMembers offset v)
    rw [mapMembersList, Bool.eq_iff_iff, hasRealLineMembers_cons, hasRealLineMembers_cons,
      hasRealLineMembers_mapMembers offset rest, ← shiftMember, isReal_shiftMember_iff, hpart]

end

/-- Where no line is a real number, lines move by any offset, and none becomes a real number. -/
theorem shiftLinesWithin_eq_ok {v : Json} (h : v.hasRealLine = false) (offset : Int) :
    v.shiftLinesWithin offset = .ok (v.shiftLines offset) ∧
      (v.shiftLines offset).hasRealLine = false := by
  constructor
  · rw [shiftLinesWithin, h, Bool.and_false, if_neg Bool.false_ne_true]
  · rw [shiftLines_eq_mapMembers, hasRealLine_mapMembers, h]

/-! ## Single line numbers -/

/-- A line number that is an integer between two bounds. -/
def IsBetween (low high : Int) (n : Json) : Prop :=
  ∃ k : Int, n = .int k ∧ low ≤ k ∧ k ≤ high

theorem isRow_int_iff {k : Int} : IsRow (.int k) ↔ 0 ≤ k := by
  simp [IsRow]

/-- Only numbers move. -/
theorem movedLine_of_not_number {offset : Int} {n : Json} (h : ¬ Number n) :
    movedLine offset n = n := by
  rcases movedLine?_cases offset "line" n with hnone | ⟨k, m, rfl, -⟩ | ⟨x, y, rfl, -⟩
  · rw [movedLine, hnone, Option.getD_none]
  · exact absurd (.int k) h
  · exact absurd (.real x) h

/-- A line number that moves up and back down is lost if it stays the first time and moves the
second time. -/
theorem movedLine_back_ne_iff {d : Int} (hd : 0 < d) {n : Json} (hn : ¬ IsReal n) :
    movedLine d (movedLine (-d) n) ≠ n ↔ IsBetween (-d) (d - 1) n := by
  by_cases hnumber : Number n
  · cases hnumber with
    | real x => exact absurd ⟨x, rfl⟩ hn
    | int k =>
      rw [movedLine_int_eq, movedLine_int_eq]
      simp only [ne_eq, Json.int.injEq, IsBetween, exists_eq_left']
      by_cases hup : 0 ≤ k + -d
      · rw [if_pos hup, if_pos (by omega)]
        omega
      · rw [if_neg hup]
        split
        all_goals omega
  · rw [movedLine_of_not_number hnumber, movedLine_of_not_number hnumber]
    refine iff_of_false (fun h => h rfl) ?_
    rintro ⟨k, rfl, -⟩
    exact hnumber (.int k)

/-- A row that moves down and then by another offset moves by both at once. -/
theorem movedLine_movedLine {a b : Int} (ha : 0 ≤ a) (hab : 0 ≤ a + b) {n : Json}
    (hn : Number n → IsRow n) : movedLine b (movedLine a n) = movedLine (a + b) n := by
  by_cases hnumber : Number n
  · obtain ⟨k, hk, rfl⟩ := hn hnumber
    have hsum : k + a + b = k + (a + b) := Int.add_assoc k a b
    rw [movedLine_int (by omega), movedLine_int (by omega), movedLine_int (by omega), hsum]
  · rw [movedLine_of_not_number hnumber, movedLine_of_not_number hnumber,
      movedLine_of_not_number hnumber]

/-! ## Values that are given back -/

/-- **When moves up and down are inverse.** If no line of a value is a real number, all its lines
can be moved up and then down again. This gives the value back exactly if no line is an integer
from `-d` to `d - 1`, wherever it stands. -/
theorem shifted_back_iff {v : Json} (hreal : v.hasRealLine = false) {d : Int} (hd : 0 < d) :
    ∃ up back, v.shiftLinesWithin (-d) = .ok up ∧ up.shiftLinesWithin d = .ok back ∧
      (back = v ↔ ¬ v.HasLine (IsBetween (-d) (d - 1))) := by
  obtain ⟨hup, hup_real⟩ := shiftLinesWithin_eq_ok hreal (-d)
  obtain ⟨hback, -⟩ := shiftLinesWithin_eq_ok hup_real d
  refine ⟨_, _, hup, hback, ?_⟩
  have hnone : ¬ v.HasLine IsReal := by
    rw [← hasRealLine_iff, hreal]
    exact Bool.false_ne_true
  have hzero : v.shiftLines 0 = v := if_pos rfl
  have hmoves := shiftLines_shiftLines_eq_iff (-d) d 0 v
  rw [hzero] at hmoves
  rw [hmoves, not_iff_not]
  constructor
  · intro hlost
    refine (hlost.without hnone).mono ?_
    rintro n ⟨hne, hn⟩
    exact (movedLine_back_ne_iff hd hn).mp hne
  · refine HasLine.mono fun n hn => ?_
    have hint : ¬ IsReal n := by
      rintro ⟨x, rfl⟩
      obtain ⟨k, hk, -⟩ := hn
      cases hk
    exact (movedLine_back_ne_iff hd hint).mpr hn

/-- A line that moves up and back down, one that only moves down and is lost, and one below zero that
never moves. -/
theorem shifted_back_iff_first_lines :
    ∃ v : Json, v = .obj [(Text.ofString "line", .int 4), (Text.ofString "at", .arr [
        .obj [(Text.ofString "line", .int 1)],
        .obj [(Text.ofString "line", .obj [(Text.ofString "line", .int (-9))])]])] ∧
      v.hasRealLine = false ∧ (0 : Int) < 3 ∧
      ∃ up back, v.shiftLinesWithin (-3) = .ok up ∧ up.shiftLinesWithin 3 = .ok back ∧
        (back = v ↔ ¬ v.HasLine (IsBetween (-3) (3 - 1))) := by
  refine ⟨_, rfl, ?_⟩
  generalize hv : Json.obj _ = v
  have hreal : v.hasRealLine = false := by
    rw [← hv]
    rfl
  exact ⟨hreal, by decide, shifted_back_iff hreal (by decide)⟩

/-! ## Moves put together -/

/-- **Moves compose.** If each line of a value that is a number is an integer and no less than zero,
its lines can be moved down and then by any offset that makes up for no more than that, and this is
one move. Moving them back up the whole way gives the value back. -/
theorem shifts_compose {v : Json} (hrows : ¬ v.HasLine fun n => Number n ∧ ¬ IsRow n) {a b : Int}
    (ha : 0 ≤ a) (hab : 0 ≤ a + b) :
    ∃ down sum, v.shiftLinesWithin a = .ok down ∧ down.shiftLinesWithin b = .ok sum ∧
      v.shiftLinesWithin (a + b) = .ok sum ∧ down.shiftLinesWithin (-a) = .ok v := by
  have hreal : v.hasRealLine = false := by
    rw [← Bool.not_eq_true, hasRealLine_iff]
    refine mt (HasLine.mono ?_) hrows
    rintro n ⟨x, rfl⟩
    exact ⟨.real x, nofun⟩
  have hcompose : ∀ c, 0 ≤ a + c → (v.shiftLines a).shiftLines c = v.shiftLines (a + c) := by
    intro c hc
    rw [shiftLines_shiftLines_eq_iff]
    refine mt (HasLine.mono ?_) hrows
    intro n hne
    by_contra hrow
    apply hne
    apply movedLine_movedLine ha hc
    intro hnumber
    by_contra hnot
    exact hrow ⟨hnumber, hnot⟩
  obtain ⟨hdown, hdown_real⟩ := shiftLinesWithin_eq_ok hreal a
  refine ⟨_, _, hdown, (shiftLinesWithin_eq_ok hdown_real b).1, ?_, ?_⟩
  · rw [hcompose b hab]
    exact (shiftLinesWithin_eq_ok hreal (a + b)).1
  · have hzero : v.shiftLines (a + -a) = v := if_pos (Int.add_right_neg a)
    rw [(shiftLinesWithin_eq_ok hdown_real (-a)).1, hcompose (-a) (Int.add_right_neg a).ge, hzero]

/-- A range in an array is moved down by five lines and up again by three. -/
theorem shifts_compose_range :
    ∃ v : Json, v = .arr [.obj [
        (Text.ofString "start", .obj [(Text.ofString "line", .int 0)]),
        (Text.ofString "end", .obj [(Text.ofString "line", .int 7)]),
        (Text.ofString "line", .str (Text.ofString "7"))]] ∧
      (¬ v.HasLine fun n => Number n ∧ ¬ IsRow n) ∧ (0 : Int) ≤ 5 ∧ (0 : Int) ≤ 5 + -3 ∧
      ∃ down sum, v.shiftLinesWithin 5 = .ok down ∧ down.shiftLinesWithin (-3) = .ok sum ∧
        v.shiftLinesWithin (5 + -3) = .ok sum ∧ down.shiftLinesWithin (-5) = .ok v := by
  refine ⟨_, rfl, ?_⟩
  generalize hv : Json.arr _ = v
  have hrows : ¬ v.HasLine fun n => Number n ∧ ¬ IsRow n := by
    have hint : ∀ k : Int, ¬ HasLine (fun n => Number n ∧ ¬ IsRow n) (.int k) := nofun
    have hstr : ∀ t : Text, ¬ HasLine (fun n => Number n ∧ ¬ IsRow n) (.str t) := nofun
    have htext : ∀ t : Text, ¬ Number (.str t) := nofun
    have hobj : ∀ members : Members, ¬ Number (.obj members) := nofun
    rw [← hv]
    simp [hasLine_arr_iff, hasLine_obj_iff, isRow_int_iff, hint, hstr, htext, hobj]
  exact ⟨hrows, by decide, by decide, shifts_compose hrows (by decide) (by decide)⟩

end SfcProxy.Json
