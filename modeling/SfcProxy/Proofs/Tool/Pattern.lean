import SfcProxy.Tool.Shell.Pattern

/-!
# What patterns of the shell match

A pattern matches a text that is cut into one piece for each of its items: any text for a star, and
one fitting byte for each other item. Of the parts that match at the start or at the end of a text,
the shortest or the longest one is taken off, as was asked. Characters that are quoted, or stand for
nothing else, match themselves only.

## Main definitions

* `Pattern.Matches`: a pattern matches a text

## Main results

* `accepts_iff`: the test is exact
* `trimStart_cases`, `trimEnd_cases`: which part of a text is taken off
* `accepts_ofGlyphs_iff`: a pattern without special characters
-/

namespace SfcProxy.Tool.Pattern

/-! ## Matches -/

/-- A pattern matches a text. -/
inductive Matches : List Item → Octets → Prop
  | nil : Matches [] []
  | one (c : Char) {items : List Item} {s : Octets} (rest : Matches items s) :
    Matches (.one c :: items) (c :: s)
  | any (c : Char) {items : List Item} {s : Octets} (rest : Matches items s) :
    Matches (.any :: items) (c :: s)
  | set {negated : Bool} {ms : List Member} {c : Char}
    (holds : (ms.any (·.holds c) != negated) = true) {items : List Item} {s : Octets}
    (rest : Matches items s) : Matches (.set negated ms :: items) (c :: s)
  | star (piece : Octets) {items : List Item} {s : Octets} (rest : Matches items s) :
    Matches (.star :: items) (piece ++ s)

variable {items : List Item} {c : Char} {s : Octets}

theorem matches_nil_iff : Matches [] s ↔ s = [] := by
  constructor
  · intro h
    cases h
    rfl
  · rintro rfl
    exact .nil

theorem matches_one_cons_iff {d : Char} :
    Matches (.one d :: items) (c :: s) ↔ c = d ∧ Matches items s := by
  constructor
  · intro h
    cases h with
    | one _ rest => exact ⟨rfl, rest⟩
  · rintro ⟨rfl, h⟩
    exact .one c h

theorem matches_any_cons_iff : Matches (.any :: items) (c :: s) ↔ Matches items s := by
  constructor
  · intro h
    cases h with
    | any _ rest => exact rest
  · exact .any c

theorem matches_set_cons_iff {negated : Bool} {ms : List Member} :
    Matches (.set negated ms :: items) (c :: s) ↔
      (ms.any (·.holds c) != negated) = true ∧ Matches items s := by
  constructor
  · intro h
    cases h with
    | set holds rest => exact ⟨holds, rest⟩
  · rintro ⟨holds, h⟩
    exact .set holds h

theorem matches_star_iff :
    Matches (.star :: items) s ↔ ∃ piece rest, s = piece ++ rest ∧ Matches items rest := by
  constructor
  · intro h
    cases h with
    | star piece rest => exact ⟨piece, _, rfl, rest⟩
  · rintro ⟨piece, rest, rfl, h⟩
    exact .star piece h

theorem matches_star_nil_iff : Matches (.star :: items) [] ↔ Matches items [] := by
  rw [matches_star_iff]
  constructor
  · rintro ⟨piece, rest, heq, h⟩
    obtain ⟨-, rfl⟩ := List.append_eq_nil_iff.mp heq.symm
    exact h
  · intro h
    exact ⟨[], [], rfl, h⟩

/-- A star matches nothing, or a byte and what a star matches. -/
theorem matches_star_cons_iff :
    Matches (.star :: items) (c :: s) ↔
      Matches items (c :: s) ∨ Matches (.star :: items) s := by
  rw [matches_star_iff, matches_star_iff]
  constructor
  · rintro ⟨piece, rest, heq, h⟩
    cases piece with
    | nil => exact .inl (heq ▸ h)
    | cons d piece =>
      obtain ⟨-, rfl⟩ := List.cons.inj heq
      exact .inr ⟨piece, rest, rfl, h⟩
  · rintro (h | ⟨piece, rest, rfl, h⟩)
    · exact ⟨[], c :: s, rfl, h⟩
    · exact ⟨c :: piece, rest, rfl, h⟩

/-- Only a star matches nothing. -/
theorem not_matches_nil {item : Item} (hitem : item ≠ .star) : ¬ Matches (item :: items) [] := by
  intro h
  generalize hs : ([] : Octets) = s at h
  cases h with
  | star => exact hitem rfl
  | one => cases hs
  | any => cases hs
  | set => cases hs

/-- The test tells exactly what a pattern matches. -/
theorem accepts_iff (items : List Item) (s : Octets) :
    accepts items s = true ↔ Matches items s := by
  induction items, s using accepts.induct with
  | case1 s => rw [accepts, List.isEmpty_iff, matches_nil_iff]
  | case2 items ih => rw [accepts, ih, matches_star_nil_iff]
  | case3 items c s ih ihstar => rw [accepts, Bool.or_eq_true, ih, ihstar, matches_star_cons_iff]
  | case4 item items hitem =>
    have hno : ¬ accepts (item :: items) [] = true := by
      rw [accepts]
      · exact Bool.false_ne_true
      · exact hitem
    exact iff_of_false hno (not_matches_nil hitem)
  | case5 d items c s ih => rw [accepts, Bool.and_eq_true, beq_iff_eq, ih, matches_one_cons_iff]
  | case6 items c s ih => rw [accepts, ih, matches_any_cons_iff]
  | case7 negated ms items c s ih =>
    rw [accepts, Bool.and_eq_true, ih, matches_set_cons_iff]

/-! ## Parts of a text -/

/-- The first element with a property comes before all others that have it. -/
theorem rel_of_find? {α : Type} {R : α → α → Prop} {xs : List α} (ordered : xs.Pairwise R)
    {p : α → Bool} {x : α} (h : xs.find? p = some x) {y : α} (hy : y ∈ xs) (hp : p y = true) :
    x = y ∨ R x y := by
  induction xs with
  | nil => cases h
  | cons z xs ih =>
    obtain ⟨hz, hordered⟩ := List.pairwise_cons.mp ordered
    by_cases hpz : p z = true
    · rw [List.find?_cons_of_pos hpz] at h
      cases h
      rcases List.mem_cons.mp hy with rfl | hy
      · exact .inl rfl
      · exact .inr (hz y hy)
    · rw [List.find?_cons_of_neg hpz] at h
      rcases List.mem_cons.mp hy with rfl | hy
      · exact absurd hp hpz
      · exact ih hordered h hy

/-- Of the cuts of a text that fit, one stands first: the least one or the greatest one. -/
theorem find?_cuts_cases (descending : Bool) (length : Nat) (p : Nat → Bool) :
    (∃ n ≤ length, p n = true ∧
      (if descending then (List.range (length + 1)).reverse
        else List.range (length + 1)).find? p = some n ∧
      ∀ k ≤ length, p k = true → if descending then k ≤ n else n ≤ k) ∨
    (∀ k ≤ length, p k = false) ∧
      (if descending then (List.range (length + 1)).reverse
        else List.range (length + 1)).find? p = none := by
  have hmem : ∀ k, k ∈ (if descending then (List.range (length + 1)).reverse
      else List.range (length + 1)) ↔ k ≤ length := by
    intro k
    split <;> simp only [List.mem_reverse, List.mem_range, Nat.lt_succ_iff]
  have hordered : (if descending then (List.range (length + 1)).reverse
      else List.range (length + 1)).Pairwise
        fun a b => if descending then b < a else a < b := by
    cases descending with
    | false => simpa using List.pairwise_lt_range
    | true => simpa [List.pairwise_reverse] using List.pairwise_lt_range
  cases hfind : (if descending then (List.range (length + 1)).reverse
      else List.range (length + 1)).find? p with
  | none =>
    refine .inr ⟨?_, rfl⟩
    intro k hk
    simpa using List.find?_eq_none.mp hfind k ((hmem k).mpr hk)
  | some n =>
    refine .inl ⟨n, (hmem n).mp (List.mem_of_find?_eq_some hfind), List.find?_some hfind, rfl, ?_⟩
    intro k hk hp
    have hrel := rel_of_find? hordered hfind ((hmem k).mpr hk) hp
    cases descending with
    | false =>
      rcases hrel with rfl | hlt
      · exact Nat.le_refl n
      · exact Nat.le_of_lt hlt
    | true =>
      rcases hrel with rfl | hlt
      · exact Nat.le_refl n
      · exact Nat.le_of_lt hlt

/-- What is taken off the start of a text is the longest or the shortest part there that matches. -/
theorem trimStart_cases (longest : Bool) (pattern : List Item) (s : Octets) :
    (∃ n ≤ s.length, Matches pattern (s.take n) ∧ trimStart longest pattern s = s.drop n ∧
      ∀ k ≤ s.length, Matches pattern (s.take k) → if longest then k ≤ n else n ≤ k) ∨
    (∀ k ≤ s.length, ¬ Matches pattern (s.take k)) ∧ trimStart longest pattern s = s := by
  rcases find?_cuts_cases longest s.length (fun n => accepts pattern (s.take n)) with
    ⟨n, hn, hp, hfind, hfirst⟩ | ⟨hno, hfind⟩
  · refine .inl ⟨n, hn, (accepts_iff _ _).mp hp, by simp only [trimStart, hfind], ?_⟩
    intro k hk h
    exact hfirst k hk ((accepts_iff _ _).mpr h)
  · refine .inr ⟨?_, by simp only [trimStart, hfind]⟩
    intro k hk h
    have hk := hno k hk
    rw [(accepts_iff _ _).mpr h] at hk
    cases hk

/-- What is taken off the end of a text is the longest or the shortest part there that matches. -/
theorem trimEnd_cases (longest : Bool) (pattern : List Item) (s : Octets) :
    (∃ n ≤ s.length, Matches pattern (s.drop n) ∧ trimEnd longest pattern s = s.take n ∧
      ∀ k ≤ s.length, Matches pattern (s.drop k) → if longest then n ≤ k else k ≤ n) ∨
    (∀ k ≤ s.length, ¬ Matches pattern (s.drop k)) ∧ trimEnd longest pattern s = s := by
  have hcuts : (if longest then List.range (s.length + 1)
      else (List.range (s.length + 1)).reverse)
        = if !longest then (List.range (s.length + 1)).reverse else List.range (s.length + 1) := by
    cases longest <;> rfl
  rcases find?_cuts_cases (!longest) s.length (fun n => accepts pattern (s.drop n)) with
    ⟨n, hn, hp, hfind, hfirst⟩ | ⟨hno, hfind⟩
  · refine .inl ⟨n, hn, (accepts_iff _ _).mp hp, by simp only [trimEnd, hcuts, hfind], ?_⟩
    intro k hk h
    have hle := hfirst k hk ((accepts_iff _ _).mpr h)
    cases longest <;> exact hle
  · refine .inr ⟨?_, by simp only [trimEnd, hcuts, hfind]⟩
    intro k hk h
    have hk := hno k hk
    rw [(accepts_iff _ _).mpr h] at hk
    cases hk

/-! ## Plain characters -/

theorem ofGlyphsFrom_eq_map {gs : List Glyph} (plain : ∀ g ∈ gs, isWild g = false) {budget : Nat}
    (hbudget : gs.length < budget) : ofGlyphsFrom budget gs = gs.map fun g => .one g.1 := by
  induction gs generalizing budget with
  | nil =>
    cases budget with
    | zero => rfl
    | succ budget => rfl
  | cons g gs ih =>
    obtain ⟨budget, rfl⟩ := Nat.exists_eq_add_one.mpr (Nat.zero_lt_of_lt hbudget)
    have hrest := ih (fun g hg => plain g (List.mem_cons_of_mem _ hg))
      (Nat.lt_of_succ_lt_succ hbudget)
    obtain ⟨c, quoted⟩ := g
    have hg := plain (c, quoted) List.mem_cons_self
    simp only [isWild, Bool.and_eq_false_iff, Bool.or_eq_false_iff, Bool.not_eq_false',
      beq_eq_false_iff_ne] at hg
    rw [ofGlyphsFrom, hrest]
    · rfl
    · rintro rfl rfl
      simp at hg
    · rintro rfl rfl
      simp at hg
    · rintro rfl rfl
      simp at hg

theorem matches_map_one_iff {cs : List Char} : Matches (cs.map .one) s ↔ s = cs := by
  induction cs generalizing s with
  | nil => exact matches_nil_iff
  | cons c cs ih =>
    cases s with
    | nil => exact iff_of_false (not_matches_nil Item.noConfusion) (List.cons_ne_nil c cs).symm
    | cons d s => rw [List.map_cons, matches_one_cons_iff, ih, List.cons.injEq]

/-- **Plain characters stand for themselves.** A pattern whose special characters are all quoted
matches one text only. -/
theorem accepts_ofGlyphs_iff {gs : List Glyph} (plain : ∀ g ∈ gs, isWild g = false) (s : Octets) :
    accepts (ofGlyphs gs) s = true ↔ s = gs.map (·.1) := by
  have hmap : ofGlyphs gs = (gs.map (·.1)).map .one := by
    rw [ofGlyphs, ofGlyphsFrom_eq_map plain (Nat.lt_succ_self _), List.map_map]
    rfl
  rw [accepts_iff, hmap]
  exact matches_map_one_iff

end SfcProxy.Tool.Pattern
