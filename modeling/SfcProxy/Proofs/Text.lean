import Mathlib.Tactic.Common
import SfcProxy.Text.Utf8

/-!
# Texts and characters

A text has characters, and so an encoding, exactly if it holds no surrogate. A text that occurs in
another has a first occurrence there, and that one is replaced.

## Main definitions

* `Text.CutAtFirst sought t before after`: a text is cut around the first occurrence of another

## Main results

* `Text.chars?_eq_some_iff`: a text and its characters
* `Text.chars?_eq_none_iff`: a text without characters holds a surrogate
* `Text.exists_replaceFirst`: what is replaced is the first occurrence
-/

namespace SfcProxy.Text

/-- The characters of a string as text. The index leaves the string out, so that `simp` finds
literals. -/
theorem ofString_ofList (cs : List Char) :
    ofString (no_index (String.ofList cs)) = ofChars cs := by
  rw [ofString, String.toList_ofList]

@[simp] theorem chars?_nil : chars? [] = some [] := rfl

@[simp] theorem chars?_scalar_cons (c : Char) (t : Text) :
    chars? (.scalar c :: t) = (chars? t).map (c :: ·) := by
  simp only [chars?, List.mapM_cons, Option.map_eq_bind]
  rfl

@[simp] theorem chars?_surrogate_cons (i : Fin 2048) (t : Text) :
    chars? (.surrogate i :: t) = none := by
  simp [chars?]

theorem chars?_eq_some_iff {t : Text} {cs : List Char} : t.chars? = some cs ↔ t = ofChars cs := by
  induction t generalizing cs with
  | nil => simp [ofChars, eq_comm]
  | cons u t ih =>
    cases u with
    | scalar c =>
      rw [chars?_scalar_cons, Option.map_eq_some_iff]
      constructor
      · rintro ⟨ds, hds, rfl⟩
        rw [ih.mp hds]
        rfl
      · intro h
        obtain ⟨d, ds, rfl, hd, ht⟩ := List.map_eq_cons_iff.mp h.symm
        obtain rfl := TextUnit.scalar.inj hd
        exact ⟨ds, ih.mpr ht.symm, rfl⟩
    | surrogate i =>
      rw [chars?_surrogate_cons]
      constructor
      · intro h
        cases h
      · intro h
        obtain ⟨d, ds, -, hd, -⟩ := List.map_eq_cons_iff.mp h.symm
        cases hd

@[simp] theorem chars?_ofChars (cs : List Char) : (ofChars cs).chars? = some cs :=
  chars?_eq_some_iff.mpr rfl

theorem chars?_eq_none_iff {t : Text} : t.chars? = none ↔ ∃ i, .surrogate i ∈ t := by
  induction t with
  | nil => simp
  | cons u t ih =>
    cases u with
    | scalar c => simp [ih]
    | surrogate i => simp

/-! ## Texts put together -/

theorem join_cons_cons (separator first second : Text) (rest : List Text) :
    join separator (first :: second :: rest)
      = first ++ separator ++ join separator (second :: rest) := by
  simp [join, List.intercalate, List.intersperse]

/-! ## The first occurrence of a text -/

/-- A text is cut around an occurrence of another, before which there is none. -/
structure CutAtFirst (sought t before after : Text) : Prop where
  split : t = before ++ sought ++ after
  least : ∀ front back, t = front ++ sought ++ back → before.length ≤ front.length

theorem CutAtFirst.unique {sought t before after before' after' : Text}
    (h : CutAtFirst sought t before after) (h' : CutAtFirst sought t before' after') :
    before = before' ∧ after = after' := by
  have hlen : before.length = before'.length :=
    Nat.le_antisymm (h.least _ _ h'.split) (h'.least _ _ h.split)
  obtain ⟨hfront, hafter⟩ := List.append_inj (h.split.symm.trans h'.split) (by simp [hlen])
  exact ⟨(List.append_inj hfront hlen).1, hafter⟩

theorem CutAtFirst.cons {sought t before after : Text} (h : CutAtFirst sought t before after)
    {u : TextUnit} (hu : ¬ sought <+: u :: t) :
    CutAtFirst sought (u :: t) (u :: before) after := by
  refine ⟨by simp [h.split], fun front back hfront => ?_⟩
  cases front with
  | nil => exact absurd ⟨back, hfront.symm⟩ hu
  | cons v front =>
    have := h.least front back (List.cons.inj hfront).2
    simpa using this

theorem exists_splitAround? {sought : Text} :
    ∀ {t front back : Text}, t = front ++ sought ++ back →
      ∃ before after, splitAround? sought t = some (before, after) ∧
        CutAtFirst sought t before after := by
  intro t
  induction t with
  | nil =>
    intro front back h
    obtain ⟨hfront, -⟩ := List.append_eq_nil_iff.mp h.symm
    obtain rfl := (List.append_eq_nil_iff.mp hfront).2
    exact ⟨[], [], rfl, rfl, by simp⟩
  | cons u t ih =>
    intro front back h
    rw [splitAround?]
    split
    · rename_i hu
      obtain ⟨rest, hrest⟩ := List.isPrefixOf_iff_prefix.mp hu
      exact ⟨[], _, rfl, by rw [← hrest]; simp, by simp⟩
    -- No occurrence begins at the first unit, so all of them are in the rest.
    · rename_i hu
      rw [List.isPrefixOf_iff_prefix] at hu
      cases front with
      | nil => exact absurd ⟨back, h.symm⟩ hu
      | cons v front =>
        obtain ⟨before, after, hsplit, hcut⟩ := ih (List.cons.inj h).2
        exact ⟨u :: before, after, by rw [hsplit]; rfl, hcut.cons hu⟩

/-- Where a text occurs in another, its first occurrence is replaced. -/
theorem exists_replaceFirst {sought t front back : Text} (h : t = front ++ sought ++ back) :
    ∃ before after, CutAtFirst sought t before after ∧
      ∀ replacement, t.replaceFirst sought replacement = before ++ replacement ++ after := by
  obtain ⟨before, after, hsplit, hcut⟩ := exists_splitAround? h
  exact ⟨before, after, hcut, fun replacement => by rw [replaceFirst, hsplit]⟩

end SfcProxy.Text
