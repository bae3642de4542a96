import SfcProxy.Proofs.Tool.Numbered
import SfcProxy.Proofs.Tool.Reach

/-!
# What regular expressions match

A regular expression relates the places where its matches start to those where they end. For
expressions that do not refer back to groups, the list of ends is that relation, the walk through
the matches one after the other finds every end that its continuation accepts, and so a search finds
the longest of all matches that start as far left as possible.

## Main definitions

* `Regex.Matches`: where matches start and end
* `Regex.isPlain`: no references back, and repetitions whose bounds are in order

## Main results

* `mem_ends_iff`: the list of ends
* `walk_sound`, `walk_complete`: the walk through the matches
* `matchAt_eq_some`, `matchAt_eq_none_iff`: the match at a place is the longest one
* `search_eq_some`, `search_eq_none_iff`: the match in a text is the leftmost one
-/

namespace SfcProxy.Tool.Regex

open Cursor (Behind)

/-! ## Matches -/

/-- A match may start at one place and end at another one. A reference back matches nothing here. -/
def Matches (mode : Mode) : Regex → Cursor → Cursor → Prop
  | empty, c, d => c = d
  | one test, c, d =>
    ∃ u rest, c.rest = u :: rest ∧ CharTest.accepts mode u test = true ∧ c.next = d
  | edge e, c, d => Edge.isAt mode c e = true ∧ c = d
  | seq a b, c, d => ∃ e, Matches mode a c e ∧ Matches mode b e d
  | alt a b, c, d => Matches mode a c d ∨ Matches mode b c d
  | rep body least most, c, d =>
    ∃ n, least ≤ n ∧ (∀ limit ∈ most, n ≤ limit) ∧ Times (Matches mode body) n c d
  | group _ body, c, d => Matches mode body c d
  | back _, _, _ => False

/-- There are no references back, and no repetition asks for more than it allows. -/
def isPlain : Regex → Bool
  | seq a b | alt a b => a.isPlain && b.isPlain
  | rep body least most => body.isPlain && most.all (least ≤ ·)
  | group _ body => body.isPlain
  | back _ => false
  | _ => true

theorem refersBack_of_isPlain {r : Regex} (plain : r.isPlain = true) : r.refersBack = false := by
  induction r with
  | seq a b iha ihb | alt a b iha ihb =>
    simp only [isPlain, Bool.and_eq_true] at plain
    simp only [refersBack, iha plain.1, ihb plain.2, Bool.or_self]
  | rep body least most ih =>
    simp only [isPlain, Bool.and_eq_true] at plain
    exact ih plain.1
  | group number body ih => exact ih plain
  | back number => cases plain
  | empty | one _ | edge _ => rfl

variable {mode : Mode} {r : Regex} {c d : Cursor}

theorem Matches.behind (h : Matches mode r c d) : c.Behind d := by
  induction r generalizing c d with
  | empty => exact h ▸ .refl c
  | one test =>
    obtain ⟨u, rest, hrest, -, rfl⟩ := h
    exact .next hrest
  | edge e => exact h.2 ▸ .refl c
  | seq a b iha ihb =>
    obtain ⟨e, ha, hb⟩ := h
    exact (iha ha).trans (ihb hb)
  | alt a b iha ihb =>
    rcases h with h | h
    · exact iha h
    · exact ihb h
  | rep body least most ih =>
    obtain ⟨n, -, -, htimes⟩ := h
    exact htimes.behind fun c d => ih
  | group number body ih => exact ih h
  | back number => exact h.elim

/-! ## Ends -/

/-- The places that repetitions of a body reach. -/
theorem mem_ends_rep_iff {body : Regex} {least : Nat} {most : Option Nat}
    (steps : ∀ c d, d ∈ ends mode body c ↔ Matches mode body c d)
    (ordered : most.all (least ≤ ·) = true) :
    d ∈ ends mode (rep body least most) c ↔ Matches mode (rep body least most) c d := by
  have onward : ∀ c d, Matches mode body c d → c.Behind d := fun _ _ => Matches.behind
  cases most with
  | none =>
    rw [ends, Matches]
    simpa using mem_closure_iterate_iff steps onward least c d
  | some limit =>
    have hlimit : least ≤ limit := by simpa using ordered
    rw [ends, Matches]
    simpa using mem_upTo_iterate_iff steps onward hlimit c d

/-- The list of ends holds all ends of matches and nothing else. -/
theorem mem_ends_iff (plain : r.isPlain = true) :
    d ∈ ends mode r c ↔ Matches mode r c d := by
  induction r generalizing c d with
  | empty =>
    rw [ends, List.mem_singleton, Matches]
    exact eq_comm
  | one test =>
    rw [ends, Matches]
    cases c.rest with
    | nil => simp
    | cons u rest =>
      dsimp only
      by_cases haccepts : CharTest.accepts mode u test = true
      · rw [if_pos haccepts, List.mem_singleton]
        constructor
        · rintro rfl
          exact ⟨u, rest, rfl, haccepts, rfl⟩
        · rintro ⟨_, _, -, -, rfl⟩
          rfl
      · rw [if_neg haccepts]
        constructor
        · intro h
          exact absurd h List.not_mem_nil
        · rintro ⟨_, _, ⟨⟩, h, -⟩
          exact absurd h haccepts
  | edge e =>
    rw [ends, Matches]
    by_cases hat : Edge.isAt mode c e = true
    · simp [hat, eq_comm]
    · simp [hat]
  | seq a b iha ihb =>
    simp only [isPlain, Bool.and_eq_true] at plain
    have hmem : ∀ d, d ∈ (ends mode a c).flatMap (ends mode b) ↔ Matches mode (seq a b) c d := by
      intro d
      simp only [List.mem_flatMap, iha plain.1, ihb plain.2, Matches]
    rw [ends, mem_fresh_nil_iff (fun d hd => ((hmem d).mp hd).behind)]
    exact hmem d
  | alt a b iha ihb =>
    simp only [isPlain, Bool.and_eq_true] at plain
    have hmem : ∀ d, d ∈ ends mode a c ++ ends mode b c ↔ Matches mode (alt a b) c d := by
      intro d
      simp only [List.mem_append, iha plain.1, ihb plain.2, Matches]
    rw [ends, mem_fresh_nil_iff (fun d hd => ((hmem d).mp hd).behind)]
    exact hmem d
  | rep body least most ih =>
    simp only [isPlain, Bool.and_eq_true] at plain
    exact mem_ends_rep_iff (fun c d => ih plain.1) plain.2
  | group number body ih => exact ih plain
  | back number => cases plain

/-! ## The walk -/

/-- A continuation is reached only by matches. -/
theorem walkRep_sound {body : Cursor → Groups → (Cursor → Groups → Option Groups) → Option Groups}
    {R : Cursor → Cursor → Prop}
    (sound : ∀ {c groups k found}, body c groups k = some found →
      ∃ d groups', R c d ∧ k d groups' = some found)
    {least : Nat} {most : Option Nat} (ordered : ∀ limit ∈ most, least ≤ limit) {groups : Groups}
    {k : Cursor → Groups → Option Groups} {budget : Nat} {found : Groups}
    (h : walkRep body least most c groups k budget = some found) :
    ∃ n d groups', least ≤ n ∧ (∀ limit ∈ most, n ≤ limit) ∧ Times R n c d ∧
      k d groups' = some found := by
  induction budget generalizing least most c groups with
  | zero =>
    rw [walkRep] at h
    split at h
    next hleast => exact ⟨0, c, groups, Nat.le_of_eq hleast, by simp, rfl, h⟩
    next => cases h
  | succ budget ih =>
    rw [walkRep] at h
    split at h
    next hmost => exact ⟨0, c, groups, ordered 0 hmost, by simp, rfl, h⟩
    next hmost =>
      have hpos : ∀ limit ∈ most, 0 < limit := by
        intro limit hlimit
        refine Nat.pos_of_ne_zero ?_
        rintro rfl
        exact hmost hlimit
      split at h
      next found' hbody =>
        obtain rfl := Option.some.inj h
        obtain ⟨e, groups', hstep, honward⟩ := sound hbody
        split at honward
        next => cases honward
        next =>
          have hordered : ∀ limit ∈ most.map (· - 1), least - 1 ≤ limit := by
            intro limit hlimit
            obtain ⟨upper, hupper, rfl⟩ := Option.map_eq_some_iff.mp hlimit
            exact Nat.sub_le_sub_right (ordered upper hupper) 1
          obtain ⟨n, d, groups'', hn, hlimits, htimes, hk⟩ := ih hordered honward
          refine ⟨n + 1, d, groups'', by omega, ?_, ⟨e, hstep, htimes⟩, hk⟩
          intro limit hlimit
          have := hlimits (limit - 1) (Option.map_eq_some_iff.mpr ⟨limit, hlimit, rfl⟩)
          have := hpos limit hlimit
          omega
      next =>
        split at h
        next hleast => exact ⟨0, c, groups, Nat.le_of_eq hleast, by simp, rfl, h⟩
        next => cases h

/-- What the walk finds comes from a match. -/
theorem walk_sound (plain : r.isPlain = true) {groups : Groups}
    {k : Cursor → Groups → Option Groups} {found : Groups}
    (h : walk mode r c groups k = some found) :
    ∃ d groups', Matches mode r c d ∧ k d groups' = some found := by
  induction r generalizing c groups k found with
  | empty => exact ⟨c, groups, rfl, h⟩
  | one test =>
    rw [walk] at h
    split at h
    next u rest hrest =>
      split at h
      next haccepts => exact ⟨c.next, groups, ⟨u, rest, hrest, haccepts, rfl⟩, h⟩
      next => cases h
    next => cases h
  | edge e =>
    rw [walk] at h
    split at h
    next hat => exact ⟨c, groups, ⟨hat, rfl⟩, h⟩
    next => cases h
  | seq a b iha ihb =>
    simp only [isPlain, Bool.and_eq_true] at plain
    obtain ⟨e, groups', ha, hrest⟩ := iha plain.1 h
    obtain ⟨d, groups'', hb, hk⟩ := ihb plain.2 hrest
    exact ⟨d, groups'', ⟨e, ha, hb⟩, hk⟩
  | alt a b iha ihb =>
    simp only [isPlain, Bool.and_eq_true] at plain
    rw [walk] at h
    split at h
    next found' ha =>
      obtain ⟨d, groups', hmatch, hk⟩ := iha plain.1 ha
      exact ⟨d, groups', .inl hmatch, hk.trans h⟩
    next =>
      obtain ⟨d, groups', hmatch, hk⟩ := ihb plain.2 h
      exact ⟨d, groups', .inr hmatch, hk⟩
  | rep body least most ih =>
    simp only [isPlain, Bool.and_eq_true] at plain
    have hordered : ∀ limit ∈ most, least ≤ limit := by
      rintro limit ⟨⟩
      simpa using plain.2
    obtain ⟨n, d, groups', hn, hlimits, htimes, hk⟩ :=
      walkRep_sound (fun hbody => ih plain.1 hbody) hordered h
    exact ⟨d, groups', ⟨n, hn, hlimits, htimes⟩, hk⟩
  | group number body ih =>
    obtain ⟨d, groups', hmatch, hk⟩ := ih plain h
    exact ⟨d, _, hmatch, hk⟩
  | back number => cases plain

/-- A continuation that accepts the end of some repetitions is reached. The induction is on these
repetitions; one that takes nothing can be left out once there are enough of them. -/
theorem walkRep_complete
    {body : Cursor → Groups → (Cursor → Groups → Option Groups) → Option Groups}
    {R : Cursor → Cursor → Prop} (onward : ∀ c d, R c d → c.Behind d)
    (complete : ∀ {c d groups k}, R c d → (∀ groups', (k d groups').isSome) →
      (body c groups k).isSome)
    {n least : Nat} {most : Option Nat} (enough : least ≤ n) (limits : ∀ limit ∈ most, n ≤ limit)
    (times : Times R n c d) {k : Cursor → Groups → Option Groups}
    (hk : ∀ groups', (k d groups').isSome) {budget : Nat}
    (hbudget : c.rest.length + least < budget) (groups : Groups) :
    (walkRep body least most c groups k budget).isSome := by
  induction n generalizing least most c groups budget with
  | zero =>
    obtain rfl := Nat.le_zero.mp enough
    obtain rfl : c = d := times
    obtain ⟨budget, rfl⟩ := Nat.exists_eq_add_one.mpr (Nat.zero_lt_of_lt hbudget)
    rw [walkRep]
    split
    next => exact hk groups
    next =>
      split
      next found _ => rfl
      next => exact hk groups
  | succ n ih =>
    obtain ⟨e, hstep, hrest⟩ := times
    obtain ⟨budget, rfl⟩ := Nat.exists_eq_add_one.mpr (Nat.zero_lt_of_lt hbudget)
    by_cases hidle : e.position = c.position ∧ least = 0
    · obtain ⟨hsame, rfl⟩ := hidle
      obtain rfl := (onward c e hstep).eq_of_position (.refl c) hsame
      exact ih (Nat.zero_le n) (fun limit hlimit => Nat.le_of_succ_le (limits limit hlimit)) hrest
        hbudget groups
    · have hmost : most ≠ some 0 := by
        rintro rfl
        exact absurd (limits 0 rfl) (Nat.not_succ_le_zero n)
      have hlimits : ∀ limit ∈ most.map (· - 1), n ≤ limit := by
        intro limit hlimit
        obtain ⟨upper, hupper, rfl⟩ := Option.map_eq_some_iff.mp hlimit
        exact Nat.le_sub_one_of_lt (limits upper hupper)
      have hshorter : e.rest.length + (least - 1) < budget := by
        have hsum := (onward c e hstep).length_add_position
        have hle := (onward c e hstep).position_le
        omega
      have hgo : ∀ groups', (walkRep body (least - 1) (most.map (· - 1)) e groups' k
          budget).isSome :=
        fun groups' => ih (by omega) hlimits hrest hshorter groups'
      have hbody : (body c groups fun e groups' =>
          if (e.position = c.position && least = 0) = true then none
          else walkRep body (least - 1) (most.map (· - 1)) e groups' k budget).isSome := by
        apply complete hstep
        intro groups'
        rw [if_neg (by simpa using hidle)]
        exact hgo groups'
      rw [walkRep, if_neg hmost]
      split
      next found _ => rfl
      next hnone =>
        rw [hnone] at hbody
        cases hbody

/-- The walk finds whatever its continuation accepts. -/
theorem walk_complete (plain : r.isPlain = true) (h : Matches mode r c d) {groups : Groups}
    {k : Cursor → Groups → Option Groups} (hk : ∀ groups', (k d groups').isSome) :
    (walk mode r c groups k).isSome := by
  induction r generalizing c d groups k with
  | empty =>
    obtain rfl : c = d := h
    exact hk groups
  | one test =>
    obtain ⟨u, rest, hrest, haccepts, rfl⟩ := h
    rw [walk, hrest]
    simpa [haccepts] using hk groups
  | edge e =>
    obtain ⟨hat, rfl⟩ := h
    simpa [walk, hat] using hk groups
  | seq a b iha ihb =>
    simp only [isPlain, Bool.and_eq_true] at plain
    obtain ⟨e, ha, hb⟩ := h
    exact iha plain.1 ha fun groups' => ihb plain.2 hb hk
  | alt a b iha ihb =>
    simp only [isPlain, Bool.and_eq_true] at plain
    rw [walk]
    rcases h with h | h
    · have hfound : (walk mode a c groups k).isSome := iha plain.1 h hk
      split
      next found _ => rfl
      next hnone =>
        rw [hnone] at hfound
        cases hfound
    · split
      next found _ => rfl
      next => exact ihb plain.2 h hk
  | rep body least most ih =>
    simp only [isPlain, Bool.and_eq_true] at plain
    obtain ⟨n, hn, hlimits, htimes⟩ := h
    exact walkRep_complete (fun _ _ => Matches.behind)
      (fun hbody hcont => ih plain.1 hbody hcont) hn hlimits htimes hk
      (Nat.lt_succ_self _) groups
  | group number body ih => exact ih plain h fun groups' => hk _
  | back number => cases plain

/-! ## The longest match -/

theorem le_foldl_max (ps : List Nat) (p : Nat) : ∀ q ∈ p :: ps, q ≤ ps.foldl max p := by
  induction ps generalizing p with
  | nil =>
    intro q hq
    exact Nat.le_of_eq (List.mem_singleton.mp hq)
  | cons a ps ih =>
    intro q hq
    rw [List.foldl_cons]
    have hmax := ih (max p a) (max p a) (by simp)
    rcases List.mem_cons.mp hq with rfl | hq
    · exact Nat.le_trans (Nat.le_max_left _ _) hmax
    · rcases List.mem_cons.mp hq with rfl | hq
      · exact Nat.le_trans (Nat.le_max_right _ _) hmax
      · exact ih (max p a) q (by simp [hq])

theorem foldl_max_mem (ps : List Nat) (p : Nat) : ps.foldl max p ∈ p :: ps := by
  induction ps generalizing p with
  | nil => simp
  | cons a ps ih =>
    rw [List.foldl_cons]
    rcases List.mem_cons.mp (ih (max p a)) with h | h
    · rw [h]
      rcases Nat.le_total p a with hle | hle
      · simp [Nat.max_eq_right hle]
      · simp [Nat.max_eq_left hle]
    · simp [h]

/-- The end of the longest match at a place. -/
structure Longest (mode : Mode) (r : Regex) (c d : Cursor) : Prop where
  isMatch : Matches mode r c d
  longest : ∀ e, Matches mode r c e → e.position ≤ d.position

/-- The text of a match leads from its start to its end. -/
theorem skip_between (h : c.Behind d) : c.skip (between c d).length = d := by
  obtain ⟨n, hn, rfl⟩ := h
  have hlength : (between c (c.skip n)).length = n := by
    rw [between, Cursor.position_skip hn, List.length_take]
    omega
  rw [hlength]

theorem matchAt_eq (mode : Mode) (c : Cursor) (plain : r.isPlain = true) :
    (∃ d groups, Longest mode r c d ∧ matchAt mode r c = some ⟨c, between c d,
      Numbered.put 0 (c.position, between c d) groups⟩) ∨
    (∀ d, ¬ Matches mode r c d) ∧ matchAt mode r c = none := by
  have hends : ∀ d, d ∈ ends mode r c ↔ Matches mode r c d := fun d => mem_ends_iff plain
  rw [matchAt]
  simp only [refersBack_of_isPlain plain, Bool.false_eq_true, if_false]
  cases hpositions : (ends mode r c).map (·.position) with
  | nil =>
    refine .inr ⟨?_, rfl⟩
    intro d hd
    rw [← hends, List.map_eq_nil_iff.mp hpositions] at hd
    exact absurd hd List.not_mem_nil
  | cons p ps =>
    have hlast := foldl_max_mem ps p
    have hle := le_foldl_max ps p
    rw [← hpositions] at hlast hle
    obtain ⟨e, he, hlast⟩ := List.mem_map.mp hlast
    have hmatch := (hends e).mp he
    have hlongest : Longest mode r c e := by
      refine ⟨hmatch, ?_⟩
      intro d hd
      rw [hlast]
      exact hle _ (List.mem_map_of_mem ((hends d).mpr hd))
    dsimp only
    rw [← hlast]
    have hfound : (walk mode r c [] fun c' groups => if c'.position = e.position then
        some (groups.put 0 (c.position, between c c')) else none).isSome :=
      walk_complete plain hmatch (by simp)
    obtain ⟨found, hfound⟩ := Option.isSome_iff_exists.mp hfound
    obtain ⟨d, groups, hd, hsome⟩ := walk_sound plain hfound
    rw [hfound]
    split at hsome
    next hposition =>
      obtain rfl := hd.behind.eq_of_position hmatch.behind hposition
      cases hsome
      exact .inl ⟨d, groups, hlongest, by simp⟩
    next => cases hsome

/-- What is found at a place is the longest match there. -/
theorem matchAt_eq_some (plain : r.isPlain = true) {m : Match}
    (h : matchAt mode r c = some m) :
    m.start = c ∧ Longest mode r c m.stop ∧ m.text = between c m.stop := by
  rcases matchAt_eq mode c plain with ⟨d, groups, hlongest, heq⟩ | ⟨-, heq⟩
  · rw [heq] at h
    cases h
    have hstop : c.skip (between c d).length = d := skip_between hlongest.isMatch.behind
    refine ⟨rfl, ?_, ?_⟩
    · rw [Match.stop, hstop]
      exact hlongest
    · rw [Match.stop, hstop]
  · rw [heq] at h
    cases h

/-- Nothing is found at a place only where nothing matches. -/
theorem matchAt_eq_none_iff (plain : r.isPlain = true) :
    matchAt mode r c = none ↔ ∀ d, ¬ Matches mode r c d := by
  rcases matchAt_eq mode c plain with ⟨d, groups, hlongest, heq⟩ | ⟨hno, heq⟩
  · rw [heq]
    constructor
    · intro h
      cases h
    · intro hno
      exact absurd hlongest.isMatch (hno d)
  · exact ⟨fun _ => hno, fun _ => heq⟩

/-! ## The leftmost match -/

theorem searchFrom_eq_some {budget : Nat} {m : Match}
    (h : searchFrom mode r c budget = some m) :
    ∃ n ≤ c.rest.length, matchAt mode r (c.skip n) = some m ∧
      ∀ k < n, matchAt mode r (c.skip k) = none := by
  induction budget generalizing c with
  | zero => cases h
  | succ budget ih =>
    rw [searchFrom] at h
    split at h
    next found hfound =>
      cases h
      exact ⟨0, Nat.zero_le _, hfound, fun k hk => absurd hk (Nat.not_lt_zero k)⟩
    next hnone =>
      split at h
      next => cases h
      next hrest =>
        obtain ⟨u, rest, hcons⟩ := List.exists_cons_of_ne_nil (by simpa using hrest : c.rest ≠ [])
        obtain ⟨n, hn, hmatch, hbefore⟩ := ih h
        rw [Cursor.next_of_rest hcons] at hn
        refine ⟨n + 1, by rw [hcons]; exact Nat.succ_le_succ hn, hmatch, ?_⟩
        intro k hk
        cases k with
        | zero => exact hnone
        | succ k => exact hbefore k (Nat.lt_of_succ_lt_succ hk)

theorem searchFrom_eq_none {budget : Nat} (hbudget : c.rest.length < budget)
    (h : searchFrom mode r c budget = none) {n : Nat} (hn : n ≤ c.rest.length) :
    matchAt mode r (c.skip n) = none := by
  induction budget generalizing c n with
  | zero => exact absurd hbudget (Nat.not_lt_zero _)
  | succ budget ih =>
    rw [searchFrom] at h
    split at h
    next => cases h
    next hnone =>
      cases n with
      | zero => exact hnone
      | succ n =>
        cases hrest : c.rest with
        | nil =>
          rw [hrest] at hn
          exact absurd hn (Nat.not_succ_le_zero n)
        | cons u rest =>
          have hnext := Cursor.next_of_rest hrest
          rw [hrest] at h hn hbudget
          refine ih ?_ h ?_
          · rw [hnext]
            exact Nat.lt_of_succ_lt_succ hbudget
          · rw [hnext]
            exact Nat.le_of_succ_le_succ hn

/-- **Leftmost and longest.** What a search finds starts as far left as any match does, and is the
longest of those that start there. -/
theorem search_eq_some (plain : r.isPlain = true) {t : Text} {m : Match}
    (h : search mode r t = some m) :
    ∃ n ≤ t.length, m.start = (Cursor.front t).skip n ∧ Longest mode r m.start m.stop ∧
      m.text = between m.start m.stop ∧
      ∀ k < n, ∀ d, ¬ Matches mode r ((Cursor.front t).skip k) d := by
  obtain ⟨n, hn, hmatch, hbefore⟩ := searchFrom_eq_some h
  obtain ⟨hstart, hlongest, htext⟩ := matchAt_eq_some plain hmatch
  rw [← hstart] at hlongest htext
  exact ⟨n, hn, hstart, hlongest, htext, fun k hk => (matchAt_eq_none_iff plain).mp (hbefore k hk)⟩

/-- A search fails only where nothing matches. -/
theorem search_eq_none_iff (plain : r.isPlain = true) {t : Text} :
    search mode r t = none ↔ ∀ n ≤ t.length, ∀ d, ¬ Matches mode r ((Cursor.front t).skip n) d := by
  constructor
  · intro h n hn
    have hbudget : (Cursor.front t).rest.length < t.length + 1 := Nat.lt_succ_self _
    exact (matchAt_eq_none_iff plain).mp (searchFrom_eq_none hbudget h hn)
  · intro h
    cases hsearch : search mode r t with
    | none => rfl
    | some m =>
      obtain ⟨n, hn, hstart, hlongest, -⟩ := search_eq_some plain hsearch
      exact absurd (hstart ▸ hlongest.isMatch) (h n hn m.stop)

end SfcProxy.Tool.Regex
