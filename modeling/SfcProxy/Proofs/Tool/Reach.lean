import Mathlib.Data.List.Nodup
import Mathlib.Data.List.Perm.Subperm
import SfcProxy.Tool.Regex.Basic

/-!
# Places that repetitions reach

A repetition goes from place to place in a text by the matches of its body. Places are told apart by
their positions alone; that is enough, because all of them lie behind the place where the repetition
starts. There are only so many, so that the search for them comes to its end by itself.

## Main definitions

* `Cursor.Behind`: a place is reached by going on through the text
* `Times`: a number of steps of a relation

## Main results

* `mem_fresh_iff`: the places that are new
* `Explored.mem_upTo_iff`, `Explored.mem_closure_iff`: the places after at most so many further steps,
  and after any number of them
* `mem_closure_iterate_iff`, `mem_upTo_iterate_iff`: the places after so many steps or more
-/

namespace SfcProxy.Tool.Regex

/-! ## Places -/

namespace Cursor

variable {c d e : Cursor}

theorem next_of_rest {u : TextUnit} {rest : Text} (h : c.rest = u :: rest) :
    c.next = ⟨some u, c.position + 1, rest⟩ := by
  rw [next, h]

theorem skip_add (c : Cursor) (n k : Nat) : c.skip (n + k) = (c.skip n).skip k := by
  induction n generalizing c with
  | zero => rw [Nat.zero_add, skip]
  | succ n ih =>
    rw [Nat.succ_add, skip, skip]
    exact ih c.next

theorem skip_rest_position {n : Nat} (h : n ≤ c.rest.length) :
    (c.skip n).rest = c.rest.drop n ∧ (c.skip n).position = c.position + n := by
  induction n generalizing c with
  | zero => exact ⟨rfl, rfl⟩
  | succ n ih =>
    cases hrest : c.rest with
    | nil =>
      rw [hrest] at h
      exact absurd h (Nat.not_succ_le_zero n)
    | cons u rest =>
      rw [hrest, List.length_cons] at h
      have hnext := next_of_rest hrest
      have hn : n ≤ c.next.rest.length := by
        rw [hnext]
        exact Nat.le_of_succ_le_succ h
      obtain ⟨hskip, hposition⟩ := ih hn
      rw [hnext] at hskip hposition
      rw [skip, hnext]
      exact ⟨hskip, by rw [hposition, Nat.add_assoc, Nat.add_comm 1 n]⟩

theorem rest_skip {n : Nat} (h : n ≤ c.rest.length) : (c.skip n).rest = c.rest.drop n :=
  (skip_rest_position h).1

theorem position_skip {n : Nat} (h : n ≤ c.rest.length) :
    (c.skip n).position = c.position + n :=
  (skip_rest_position h).2

/-- A place is reached from another one by going on through the text. -/
def Behind (c d : Cursor) : Prop :=
  ∃ n ≤ c.rest.length, c.skip n = d

namespace Behind

theorem refl (c : Cursor) : c.Behind c :=
  ⟨0, Nat.zero_le _, rfl⟩

theorem next {u : TextUnit} {rest : Text} (h : c.rest = u :: rest) : c.Behind c.next :=
  ⟨1, by simp [h], rfl⟩

theorem trans (h : c.Behind d) (h' : d.Behind e) : c.Behind e := by
  obtain ⟨n, hn, rfl⟩ := h
  obtain ⟨k, hk, rfl⟩ := h'
  rw [rest_skip hn, List.length_drop] at hk
  exact ⟨n + k, by omega, skip_add c n k⟩

theorem position_le (h : c.Behind d) : c.position ≤ d.position := by
  obtain ⟨n, hn, rfl⟩ := h
  rw [position_skip hn]
  exact Nat.le_add_right _ _

theorem length_add_position (h : c.Behind d) :
    d.position + d.rest.length = c.position + c.rest.length := by
  obtain ⟨n, hn, rfl⟩ := h
  rw [position_skip hn, rest_skip hn, List.length_drop]
  omega

/-- Places behind one and the same place are told apart by their positions. -/
theorem eq_of_position (h : c.Behind d) (h' : c.Behind e) (same : d.position = e.position) :
    d = e := by
  obtain ⟨n, hn, rfl⟩ := h
  obtain ⟨k, hk, rfl⟩ := h'
  rw [position_skip hn, position_skip hk] at same
  rw [Nat.add_left_cancel same]

end Behind

end Cursor

open Cursor (Behind)

/-! ## New places -/

section Fresh

variable {origin : Cursor}

/-- Adding a place to the new ones, unless it is known. -/
theorem any_position_iff {places : List Cursor} (hplaces : ∀ c ∈ places, origin.Behind c)
    {c : Cursor} (hc : origin.Behind c) :
    places.any (·.position = c.position) = true ↔ c ∈ places := by
  rw [List.any_eq_true]
  constructor
  · rintro ⟨d, hd, same⟩
    rwa [← (hplaces d hd).eq_of_position hc (of_decide_eq_true same)]
  · intro hc
    exact ⟨c, hc, decide_eq_true rfl⟩

theorem mem_foldl_fresh_iff {known : List Cursor} (hknown : ∀ c ∈ known, origin.Behind c)
    {cs new : List Cursor} (hcs : ∀ c ∈ cs, origin.Behind c) (hnew : ∀ c ∈ new, origin.Behind c)
    (c : Cursor) :
    c ∈ cs.foldl (fun new c =>
        if (known ++ new).any (·.position = c.position) then new else new ++ [c]) new
      ↔ c ∈ new ∨ c ∈ cs ∧ c ∉ known := by
  induction cs generalizing new with
  | nil => simp
  | cons d cs ih =>
    have hd := hcs d (by simp)
    have hrest : ∀ c ∈ cs, origin.Behind c := fun c hc => hcs c (by simp [hc])
    have hall : ∀ c ∈ known ++ new, origin.Behind c := by
      intro c hc
      rcases List.mem_append.mp hc with hc | hc
      · exact hknown c hc
      · exact hnew c hc
    rw [List.foldl_cons]
    by_cases hmem : d ∈ known ++ new
    · rw [if_pos ((any_position_iff hall hd).mpr hmem), ih hrest hnew]
      have hd' : d ∉ known → d ∈ new := (List.mem_append.mp hmem).resolve_left
      constructor
      · rintro (h | ⟨h, h'⟩)
        · exact .inl h
        · exact .inr ⟨List.mem_cons_of_mem d h, h'⟩
      · rintro (h | ⟨h, h'⟩)
        · exact .inl h
        · rcases List.mem_cons.mp h with rfl | h
          · exact .inl (hd' h')
          · exact .inr ⟨h, h'⟩
    · have hnew' : ∀ c ∈ new ++ [d], origin.Behind c := by
        intro c hc
        rcases List.mem_append.mp hc with hc | hc
        · exact hnew c hc
        · exact List.mem_singleton.mp hc ▸ hd
      rw [if_neg (mt (any_position_iff hall hd).mp hmem), ih hrest hnew']
      have hd' : d ∉ known := fun h => hmem (List.mem_append_left new h)
      simp only [List.mem_append, List.mem_cons, List.not_mem_nil, or_false]
      constructor
      · rintro ((h | rfl) | ⟨h, h'⟩)
        · exact .inl h
        · exact .inr ⟨.inl rfl, hd'⟩
        · exact .inr ⟨.inr h, h'⟩
      · rintro (h | ⟨rfl | h, h'⟩)
        · exact .inl (.inl h)
        · exact .inl (.inr rfl)
        · exact .inr ⟨h, h'⟩

/-- The places that are new. -/
theorem mem_fresh_iff {known cs : List Cursor} (hknown : ∀ c ∈ known, origin.Behind c)
    (hcs : ∀ c ∈ cs, origin.Behind c) (c : Cursor) : c ∈ fresh known cs ↔ c ∈ cs ∧ c ∉ known := by
  rw [fresh, mem_foldl_fresh_iff hknown hcs (by simp)]
  simp

theorem mem_fresh_nil_iff {cs : List Cursor} (hcs : ∀ c ∈ cs, origin.Behind c) (c : Cursor) :
    c ∈ fresh [] cs ↔ c ∈ cs := by
  have hnil : ∀ c ∈ ([] : List Cursor), origin.Behind c := by simp
  rw [mem_fresh_iff hnil hcs]
  simp

/-- No place is taken up twice. -/
theorem nodup_foldl_fresh {known new : List Cursor} (cs : List Cursor)
    (h : ((known ++ new).map Cursor.position).Nodup) :
    ((known ++ cs.foldl (fun new c =>
        if (known ++ new).any (·.position = c.position) then new else new ++ [c]) new).map
      Cursor.position).Nodup := by
  induction cs generalizing new with
  | nil => exact h
  | cons d cs ih =>
    rw [List.foldl_cons]
    split
    next => exact ih h
    next hany =>
      apply ih
      rw [← List.append_assoc, List.map_append, List.map_singleton]
      refine List.nodup_append.mpr ⟨h, List.nodup_singleton _, ?_⟩
      rintro _ hmem _ hd rfl
      obtain ⟨c, hc, same⟩ := List.mem_map.mp hmem
      refine hany (List.any_eq_true.mpr ⟨c, hc, decide_eq_true ?_⟩)
      rw [same, List.mem_singleton.mp hd]

theorem nodup_fresh {known : List Cursor} (cs : List Cursor)
    (h : (known.map Cursor.position).Nodup) :
    ((known ++ fresh known cs).map Cursor.position).Nodup :=
  nodup_foldl_fresh cs (by rwa [List.append_nil])

/-- There are only so many places behind a place. -/
theorem length_le_of_nodup {places : List Cursor} (h : ∀ c ∈ places, origin.Behind c)
    (distinct : (places.map Cursor.position).Nodup) : places.length ≤ origin.rest.length + 1 := by
  have hsubset : places.map Cursor.position ⊆
      List.range' origin.position (origin.rest.length + 1) := by
    intro position hposition
    obtain ⟨c, hc, rfl⟩ := List.mem_map.mp hposition
    have hle := (h c hc).position_le
    have hsum := (h c hc).length_add_position
    exact List.mem_range'_1.mpr ⟨hle, by omega⟩
  have hlength := (distinct.subperm hsubset).length_le
  rwa [List.length_map, List.length_range'] at hlength

end Fresh

/-! ## Steps -/

/-- A number of steps of a relation. -/
def Times (R : Cursor → Cursor → Prop) : Nat → Cursor → Cursor → Prop
  | 0, c, d => c = d
  | n + 1, c, d => ∃ e, R c e ∧ Times R n e d

/-- No place is there twice after a step. -/
theorem nodup_iterate (step : Cursor → List Cursor) (n : Nat) {cs : List Cursor}
    (h : (cs.map Cursor.position).Nodup) : ((iterate step n cs).map Cursor.position).Nodup := by
  induction n generalizing cs with
  | zero => exact h
  | succ n ih =>
    have hnil : (([] : List Cursor).map Cursor.position).Nodup := List.nodup_nil
    exact ih (nodup_fresh (cs.flatMap step) hnil)

section Steps

variable {R : Cursor → Cursor → Prop} {origin : Cursor}

theorem Times.add {n k : Nat} {c d e : Cursor} (h : Times R n c d) (h' : Times R k d e) :
    Times R (n + k) c e := by
  induction n generalizing c with
  | zero =>
    cases h
    rwa [Nat.zero_add]
  | succ n ih =>
    obtain ⟨b, hb, hrest⟩ := h
    rw [Nat.succ_add]
    exact ⟨b, hb, ih hrest⟩

theorem Times.split {n k : Nat} {c e : Cursor} (h : Times R (n + k) c e) :
    ∃ d, Times R n c d ∧ Times R k d e := by
  induction n generalizing c with
  | zero =>
    rw [Nat.zero_add] at h
    exact ⟨c, rfl, h⟩
  | succ n ih =>
    rw [Nat.succ_add] at h
    obtain ⟨b, hb, hrest⟩ := h
    obtain ⟨d, hd, hend⟩ := ih hrest
    exact ⟨d, ⟨b, hb, hd⟩, hend⟩

theorem Times.behind (onward : ∀ c d, R c d → c.Behind d) {n : Nat} {c d : Cursor}
    (h : Times R n c d) : c.Behind d := by
  induction n generalizing c with
  | zero => exact h ▸ .refl c
  | succ n ih =>
    obtain ⟨e, he, hrest⟩ := h
    exact (onward c e he).trans (ih hrest)

variable {step : Cursor → List Cursor} (steps : ∀ c d, d ∈ step c ↔ R c d)
  (onward : ∀ c d, R c d → c.Behind d)

include steps onward

theorem behind_of_mem_flatMap {cs : List Cursor} (hcs : ∀ c ∈ cs, origin.Behind c) :
    ∀ d ∈ cs.flatMap step, origin.Behind d := by
  intro d hd
  obtain ⟨c, hc, hstep⟩ := List.mem_flatMap.mp hd
  exact (hcs c hc).trans (onward c d ((steps c d).mp hstep))

/-- The places after exactly so many steps. -/
theorem mem_iterate_iff (n : Nat) {cs : List Cursor} (hcs : ∀ c ∈ cs, origin.Behind c)
    (d : Cursor) : d ∈ iterate step n cs ↔ ∃ c ∈ cs, Times R n c d := by
  induction n generalizing cs with
  | zero => simp [iterate, Times]
  | succ n ih =>
    have hnext := behind_of_mem_flatMap steps onward hcs
    have hfresh := mem_fresh_nil_iff hnext
    have hbehind : ∀ c ∈ fresh [] (cs.flatMap step), origin.Behind c :=
      fun c hc => hnext c ((hfresh c).mp hc)
    rw [iterate, ih hbehind]
    constructor
    · rintro ⟨e, he, htimes⟩
      obtain ⟨c, hc, hstep⟩ := List.mem_flatMap.mp ((hfresh e).mp he)
      exact ⟨c, hc, e, (steps c e).mp hstep, htimes⟩
    · rintro ⟨c, hc, e, hstep, htimes⟩
      have he : e ∈ cs.flatMap step := List.mem_flatMap.mpr ⟨c, hc, (steps c e).mpr hstep⟩
      exact ⟨e, (hfresh e).mpr he, htimes⟩

end Steps

/-! ## Rounds -/

/-- Places whose steps have all been taken but for those at the frontier. -/
structure Explored (origin : Cursor) (step : Cursor → List Cursor) (known frontier : List Cursor) :
    Prop where
  behind : ∀ c ∈ known, origin.Behind c
  frontier_subset : frontier ⊆ known
  closed : ∀ c ∈ known, c ∉ frontier → step c ⊆ known

namespace Explored

variable {R : Cursor → Cursor → Prop} {origin : Cursor} {step : Cursor → List Cursor}
  {known frontier : List Cursor} (steps : ∀ c d, d ∈ step c ↔ R c d)
  (onward : ∀ c d, R c d → c.Behind d) (h : Explored origin step known frontier)

theorem start {cs : List Cursor} (behind : ∀ c ∈ cs, origin.Behind c) :
    Explored origin step cs cs where
  behind
  frontier_subset := List.Subset.refl cs
  closed _ hc hno := absurd hc hno

include steps onward h

theorem mem_fresh (d : Cursor) :
    d ∈ fresh known (frontier.flatMap step) ↔ (∃ c ∈ frontier, R c d) ∧ d ∉ known := by
  have hfrontier : ∀ c ∈ frontier, origin.Behind c := fun c hc => h.behind c (h.frontier_subset hc)
  rw [mem_fresh_iff h.behind (behind_of_mem_flatMap steps onward hfrontier)]
  simp only [List.mem_flatMap, steps]

/-- A step leads to a place that is known or new. -/
theorem step_mem {c d : Cursor} (hc : c ∈ known) (hd : R c d) :
    d ∈ known ∨ d ∈ fresh known (frontier.flatMap step) := by
  by_cases hknown : d ∈ known
  · exact .inl hknown
  · by_cases hfrontier : c ∈ frontier
    · exact .inr ((h.mem_fresh steps onward d).mpr ⟨⟨c, hfrontier, hd⟩, hknown⟩)
    · exact .inl (h.closed c hc hfrontier ((steps c d).mpr hd))

/-- The next round. -/
theorem round : Explored origin step (known ++ fresh known (frontier.flatMap step))
    (fresh known (frontier.flatMap step)) where
  behind c hc := by
    rcases List.mem_append.mp hc with hc | hc
    · exact h.behind c hc
    · obtain ⟨⟨b, hb, hstep⟩, -⟩ := (h.mem_fresh steps onward c).mp hc
      exact (h.behind b (h.frontier_subset hb)).trans (onward b c hstep)
  frontier_subset := List.subset_append_right _ _
  closed c hc hno := by
    intro d hd
    have hknown := (List.mem_append.mp hc).resolve_right hno
    exact List.mem_append.mpr (h.step_mem steps onward hknown ((steps c d).mp hd))

/-- Steps that lead away from the known places go through a new one. -/
theorem leave {n : Nat} {c d : Cursor} (hc : c ∈ known) (htimes : Times R n c d) :
    d ∈ known ∨ ∃ k < n, ∃ e ∈ fresh known (frontier.flatMap step), Times R k e d := by
  induction n generalizing c with
  | zero => exact .inl (htimes ▸ hc)
  | succ n ih =>
    obtain ⟨b, hb, hrest⟩ := htimes
    rcases h.step_mem steps onward hc hb with hknown | hnew
    · rcases ih hknown hrest with hd | ⟨k, hk, e, he, hd⟩
      · exact .inl hd
      · exact .inr ⟨k, Nat.lt_succ_of_lt hk, e, he, hd⟩
    · exact .inr ⟨n, Nat.lt_succ_self n, b, hnew, hrest⟩

/-- One round more reaches what is a step further from the frontier. -/
theorem reach_iff (n : Nat) (d : Cursor) :
    (d ∈ known ++ fresh known (frontier.flatMap step) ∨
      ∃ k ≤ n, ∃ c ∈ fresh known (frontier.flatMap step), Times R k c d) ↔
    d ∈ known ∨ ∃ k ≤ n + 1, ∃ c ∈ frontier, Times R k c d := by
  constructor
  · rintro (hd | ⟨k, hk, c, hc, htimes⟩)
    · rcases List.mem_append.mp hd with hd | hd
      · exact .inl hd
      · obtain ⟨⟨b, hb, hstep⟩, -⟩ := (h.mem_fresh steps onward d).mp hd
        exact .inr ⟨1, Nat.le_add_left 1 n, b, hb, d, hstep, rfl⟩
    · obtain ⟨⟨b, hb, hstep⟩, -⟩ := (h.mem_fresh steps onward c).mp hc
      exact .inr ⟨k + 1, Nat.succ_le_succ hk, b, hb, c, hstep, htimes⟩
  · rintro (hd | ⟨k, hk, c, hc, htimes⟩)
    · exact .inl (List.mem_append_left _ hd)
    · rcases h.leave steps onward (h.frontier_subset hc) htimes with hd | ⟨j, hj, e, he, hd⟩
      · exact .inl (List.mem_append_left _ hd)
      · exact .inr ⟨j, by omega, e, he, hd⟩

/-- The places after at most so many further steps. -/
theorem mem_upTo_iff (n : Nat) (d : Cursor) :
    d ∈ upTo step known frontier n ↔ d ∈ known ∨ ∃ k ≤ n, ∃ c ∈ frontier, Times R k c d := by
  induction n generalizing known frontier with
  | zero =>
    rw [upTo]
    constructor
    · exact .inl
    · rintro (hd | ⟨k, hk, c, hc, htimes⟩)
      · exact hd
      · obtain rfl := Nat.le_zero.mp hk
        exact htimes ▸ h.frontier_subset hc
  | succ n ih =>
    rw [upTo, ih (h.round steps onward)]
    exact h.reach_iff steps onward n d

/-- Where no place is new, steps do not lead away from the known ones. -/
theorem mem_of_times (hfresh : fresh known (frontier.flatMap step) = []) {n : Nat} {c d : Cursor}
    (hc : c ∈ frontier) (htimes : Times R n c d) : d ∈ known := by
  rcases h.leave steps onward (h.frontier_subset hc) htimes with hd | ⟨k, -, e, he, -⟩
  · exact hd
  · rw [hfresh] at he
    exact absurd he List.not_mem_nil

/-- The places after any number of further steps: the rounds suffice, since each of them finds a
place that was not known. -/
theorem mem_closure_iff {budget : Nat} (distinct : (known.map Cursor.position).Nodup)
    (enough : origin.rest.length + 1 ≤ known.length + budget) (d : Cursor) :
    d ∈ closure step known frontier budget ↔ d ∈ known ∨ ∃ k, ∃ c ∈ frontier, Times R k c d := by
  induction budget generalizing known frontier with
  | zero =>
    have hlength := length_le_of_nodup (h.round steps onward).behind
      (nodup_fresh (frontier.flatMap step) distinct)
    rw [List.length_append] at hlength
    have hfresh := List.length_eq_zero_iff.mp (by omega :
      (fresh known (frontier.flatMap step)).length = 0)
    constructor
    · exact .inl
    · rintro (hd | ⟨k, c, hc, htimes⟩)
      · exact hd
      · exact h.mem_of_times steps onward hfresh hc htimes
  | succ budget ih =>
    rw [closure]
    cases hfresh : fresh known (frontier.flatMap step) with
    | nil =>
      constructor
      · exact .inl
      · rintro (hd | ⟨k, c, hc, htimes⟩)
        · exact hd
        · exact h.mem_of_times steps onward hfresh hc htimes
    | cons e more =>
      have hround := h.round steps onward
      have hdistinct := nodup_fresh (frontier.flatMap step) distinct
      rw [hfresh] at hround hdistinct
      rw [ih hround hdistinct (by rw [List.length_append, List.length_cons]; omega)]
      have hreach := fun n => h.reach_iff steps onward n d
      rw [hfresh] at hreach
      constructor
      · rintro (hd | ⟨k, c, hc, htimes⟩)
        · rcases (hreach 0).mp (.inl hd) with hd | ⟨k, -, hk⟩
          · exact .inl hd
          · exact .inr ⟨k, hk⟩
        · rcases (hreach k).mp (.inr ⟨k, Nat.le_refl k, c, hc, htimes⟩) with hd | ⟨k, -, hk⟩
          · exact .inl hd
          · exact .inr ⟨k, hk⟩
      · rintro (hd | ⟨k, c, hc, htimes⟩)
        · exact .inl (List.mem_append_left _ hd)
        · rcases (hreach k).mpr (.inr ⟨k, Nat.le_succ k, c, hc, htimes⟩) with hd | ⟨k, -, hk⟩
          · exact .inl hd
          · exact .inr ⟨k, hk⟩

end Explored

/-! ## Repetitions -/

section Repetitions

variable {R : Cursor → Cursor → Prop} {step : Cursor → List Cursor}
  (steps : ∀ c d, d ∈ step c ↔ R c d) (onward : ∀ c d, R c d → c.Behind d)

include steps onward

/-- The places after exactly so many steps from a place. -/
theorem mem_iterate_singleton_iff (n : Nat) (c d : Cursor) :
    d ∈ iterate step n [c] ↔ Times R n c d := by
  have hstart : ∀ e ∈ [c], c.Behind e := fun e he => List.mem_singleton.mp he ▸ .refl c
  rw [mem_iterate_iff steps onward n hstart]
  simp

theorem explored_iterate (n : Nat) (c : Cursor) :
    Explored c step (iterate step n [c]) (iterate step n [c]) :=
  .start fun e he => ((mem_iterate_singleton_iff steps onward n c e).mp he).behind onward

/-- Some steps, and some more behind them. -/
theorem times_iterate_iff (n k : Nat) (c d : Cursor) :
    (∃ e ∈ iterate step n [c], Times R k e d) ↔ Times R (n + k) c d := by
  simp only [mem_iterate_singleton_iff steps onward]
  constructor
  · rintro ⟨e, hfirst, hrest⟩
    exact hfirst.add hrest
  · exact Times.split

/-- The places after so many steps or more. -/
theorem mem_closure_iterate_iff (least : Nat) (c d : Cursor) :
    d ∈ closure step (iterate step least [c]) (iterate step least [c]) (c.rest.length + 1)
      ↔ ∃ n, least ≤ n ∧ Times R n c d := by
  have hdistinct : ((iterate step least [c]).map Cursor.position).Nodup :=
    nodup_iterate step least (List.nodup_singleton _)
  rw [(explored_iterate steps onward least c).mem_closure_iff steps onward hdistinct
    (Nat.le_add_left _ _), mem_iterate_singleton_iff steps onward]
  simp only [times_iterate_iff steps onward]
  constructor
  · rintro (h | ⟨k, h⟩)
    · exact ⟨least, Nat.le_refl least, h⟩
    · exact ⟨least + k, Nat.le_add_right least k, h⟩
  · rintro ⟨n, hn, h⟩
    obtain ⟨k, rfl⟩ := Nat.exists_eq_add_of_le hn
    exact .inr ⟨k, h⟩

/-- The places after so many steps or more, up to a limit. -/
theorem mem_upTo_iterate_iff {least limit : Nat} (ordered : least ≤ limit) (c d : Cursor) :
    d ∈ upTo step (iterate step least [c]) (iterate step least [c]) (limit - least)
      ↔ ∃ n, least ≤ n ∧ n ≤ limit ∧ Times R n c d := by
  rw [(explored_iterate steps onward least c).mem_upTo_iff steps onward,
    mem_iterate_singleton_iff steps onward]
  simp only [times_iterate_iff steps onward]
  constructor
  · rintro (h | ⟨k, hk, h⟩)
    · exact ⟨least, Nat.le_refl least, ordered, h⟩
    · exact ⟨least + k, Nat.le_add_right least k, by omega, h⟩
  · rintro ⟨n, hn, hlimit, h⟩
    obtain ⟨k, rfl⟩ := Nat.exists_eq_add_of_le hn
    exact .inr ⟨k, by omega, h⟩

end Repetitions

end SfcProxy.Tool.Regex
