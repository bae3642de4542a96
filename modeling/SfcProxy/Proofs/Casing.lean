import Mathlib.Data.List.Basic
import SfcProxy.GeneratedFile

/-!
# Endings in lower case

Whether a text ends in something, but for case, depends on its last units alone. Two things stand in
the way of that: a capital sigma takes its form from what stands around it, and the capital I with a
dot becomes two units, of which an ending may cut off one. An ending without the units that come
from these two is the lower-case form of as many units at the end of the text, whatever stands
before them.

## Main definitions

* `Text.unsteady`: the units that may come from more or from less than one unit alone

## Main results

* `Text.suffix_lower_iff`: an ending of the lower-case form comes from an ending of the text
* `GeneratedFile.suffix_nameOf`: generated files end in their suffix
-/

namespace SfcProxy

/-- A capital sigma. -/
def TextUnit.IsSigma (u : TextUnit) : Prop :=
  u.codePoint = 0x3A3

namespace Text

/-- The units that may come from more or from less than one unit alone: the two small sigmas, and
the dot above. -/
def unsteady : List TextUnit :=
  [.scalar (Char.ofNat 0x3C2), .scalar (Char.ofNat 0x3C3), .scalar (Char.ofNat 0x307)]

/-- The lower-case form of a unit between others. -/
def lowerBetween (before : Text) (u : TextUnit) (rest : Text) : Text :=
  if u.codePoint = 0x3A3 ∧ nextIsCased before ∧ !nextIsCased rest then
    [.scalar (Char.ofNat 0x3C2)]
  else u.lower

theorem lowerAfter_cons (before : Text) (u : TextUnit) (rest : Text) :
    lowerAfter before (u :: rest) = lowerBetween before u rest ++ lowerAfter (u :: before) rest :=
  rfl

theorem lower_of_isSigma {u : TextUnit} (h : u.IsSigma) :
    u.lower = [.scalar (Char.ofNat 0x3C3)] := by
  have hsmall : TextUnit.ofCodePoint (lowerCodePoint 0x3A3) = .scalar (Char.ofNat 0x3C3) := by
    decide +kernel
  rw [TextUnit.lower, h, if_neg (by decide), hsmall]

theorem lowerBetween_of_not_isSigma {u : TextUnit} (h : ¬ u.IsSigma) (before rest : Text) :
    lowerBetween before u rest = u.lower :=
  if_neg fun hsigma => h hsigma.1

/-- Every unit has one unit as its form, or two of which the second is unsteady. -/
theorem lowerBetween_cases (before : Text) (u : TextUnit) (rest : Text) :
    (∃ v, lowerBetween before u rest = [v]) ∨
      ∃ v, ∃ w ∈ unsteady, lowerBetween before u rest = [v, w] := by
  unfold lowerBetween TextUnit.lower
  split
  · exact .inl ⟨_, rfl⟩
  · split
    · exact .inr ⟨_, .scalar (Char.ofNat 0x307), by simp [unsteady], rfl⟩
    · exact .inl ⟨_, rfl⟩

/-- Where no small sigma comes out, no capital one went in. -/
theorem not_isSigma_of_lowerBetween {before : Text} {u : TextUnit} {rest : Text}
    (h : ∀ v ∈ lowerBetween before u rest, v ∉ unsteady) : ¬ u.IsSigma := by
  intro hsigma
  have hlower := lower_of_isSigma hsigma
  unfold lowerBetween at h
  split at h
  · exact h _ (List.mem_singleton_self _) (by simp [unsteady])
  · rw [hlower] at h
    exact h _ (List.mem_singleton_self _) (by simp [unsteady])

theorem not_isSigma_of_lower {u : TextUnit} (h : ∀ v ∈ u.lower, v ∉ unsteady) : ¬ u.IsSigma := by
  intro hsigma
  rw [lower_of_isSigma hsigma] at h
  exact h _ (List.mem_singleton_self _) (by simp [unsteady])

/-- Without unsteady units, every unit is mapped on its own. -/
theorem lowerAfter_eq_flatMap {before t : Text} (h : ∀ u ∈ t, ¬ u.IsSigma) :
    lowerAfter before t = t.flatMap TextUnit.lower := by
  induction t generalizing before with
  | nil => rfl
  | cons u t ih =>
    rw [lowerAfter_cons, List.flatMap_cons, ih fun v hv => h v (List.mem_cons_of_mem u hv),
      lowerBetween_of_not_isSigma (h u List.mem_cons_self)]

theorem flatMap_lower_of_lowerAfter {before t ending : Text} (h : lowerAfter before t = ending)
    (hending : ∀ v ∈ ending, v ∉ unsteady) : t.flatMap TextUnit.lower = ending := by
  induction t generalizing before ending with
  | nil => exact h
  | cons u t ih =>
    subst h
    rw [lowerAfter_cons] at hending ⊢
    have hu : ¬ u.IsSigma :=
      not_isSigma_of_lowerBetween fun v hv => hending v (List.mem_append_left _ hv)
    rw [List.flatMap_cons, lowerBetween_of_not_isSigma hu,
      ih rfl fun v hv => hending v (List.mem_append_right _ hv)]

/-- What stands at the end has a form of its own. -/
theorem lowerAfter_append (before front back : Text) :
    ∃ lowered, lowerAfter before (front ++ back)
      = lowered ++ lowerAfter (front.reverse ++ before) back := by
  induction front generalizing before with
  | nil => exact ⟨[], rfl⟩
  | cons u front ih =>
    obtain ⟨lowered, hlowered⟩ := ih (u :: before)
    refine ⟨lowerBetween before u (front ++ back) ++ lowered, ?_⟩
    rw [List.cons_append, lowerAfter_cons, hlowered, List.reverse_cons, List.append_assoc,
      List.append_assoc, List.singleton_append]

/-- A steady ending of the lower-case form begins where a unit of the text does. -/
theorem exists_of_suffix_lowerAfter {before t ending : Text} (h : ending <:+ lowerAfter before t)
    (hending : ∀ v ∈ ending, v ∉ unsteady) :
    ∃ back, back <:+ t ∧ back.flatMap TextUnit.lower = ending := by
  induction t generalizing before with
  | nil =>
    obtain rfl := List.suffix_nil.mp h
    exact ⟨[], List.suffix_rfl, rfl⟩
  | cons u t ih =>
    obtain ⟨front, hfront⟩ := h
    rw [lowerAfter_cons] at hfront
    rcases List.append_eq_append_iff.mp hfront with ⟨middle, hmiddle, hrest⟩ | ⟨middle, -, hrest⟩
    · rcases front with _ | ⟨v, front⟩
      · exact ⟨u :: t, List.suffix_rfl,
          flatMap_lower_of_lowerAfter (by rw [lowerAfter_cons, ← hfront]; rfl) hending⟩
      · rcases middle with _ | ⟨w, middle⟩
        · obtain ⟨back, hback, hlower⟩ := ih ⟨[], by rw [hrest]; rfl⟩
          exact ⟨back, hback.trans (List.suffix_cons u t), hlower⟩
        · exfalso
          have hw : w ∈ ending := by
            rw [hrest]
            exact List.mem_append_left _ List.mem_cons_self
          rcases lowerBetween_cases before u t with ⟨a, ha⟩ | ⟨a, b, hb, hab⟩
          · have hlength := congrArg List.length (ha.symm.trans hmiddle)
            simp only [List.length_append, List.length_cons, List.length_nil] at hlength
            omega
          · have hpair : [a, b] = v :: (front ++ w :: middle) := hab.symm.trans hmiddle
            have hmem : w ∈ [b] := by
              rw [(List.cons.inj hpair).2]
              exact List.mem_append_right _ List.mem_cons_self
            exact hending w hw (List.mem_singleton.mp hmem ▸ hb)
    · obtain ⟨back, hback, hlower⟩ := ih ⟨middle, hrest.symm⟩
      exact ⟨back, hback.trans (List.suffix_cons u t), hlower⟩

/-- **A steady ending of the lower-case form comes from an ending of the text**, unit by unit. -/
theorem suffix_lower_iff {t ending : Text} (hending : ∀ v ∈ ending, v ∉ unsteady) :
    ending <:+ t.lower ↔ ∃ back, back <:+ t ∧ back.flatMap TextUnit.lower = ending := by
  constructor
  · exact fun h => exists_of_suffix_lowerAfter h hending
  · rintro ⟨back, ⟨front, rfl⟩, rfl⟩
    have hback : ∀ u ∈ back, ¬ u.IsSigma := fun u hu =>
      not_isSigma_of_lower fun v hv => hending v (List.mem_flatMap.mpr ⟨u, hu, hv⟩)
    obtain ⟨lowered, hlowered⟩ := lowerAfter_append [] front back
    rw [lower, hlowered, lowerAfter_eq_flatMap hback]
    exact List.suffix_append lowered _

/-! ## ASCII -/

/-- The lower-case code point of a code point of ASCII. -/
def lowerAscii (n : Nat) : Nat :=
  if 0x41 ≤ n ∧ n ≤ 0x5A then n + 32 else n

/-- Of all runs of capitals, only the first is within ASCII. -/
theorem lowerCodePoint_ascii {n : Nat} (h : n < 128) : lowerCodePoint n = lowerAscii n := by
  have hruns : ∃ others, lowerRuns = ⟨0x41, 0x5A, 1, 0x61⟩ :: others ∧
      ∀ run ∈ others, 128 ≤ run.first := ⟨_, rfl, by decide +kernel⟩
  obtain ⟨others, hruns, hothers⟩ := hruns
  rw [lowerCodePoint, CaseRun.map, hruns, lowerAscii]
  by_cases hcapital : 0x41 ≤ n ∧ n ≤ 0x5A
  · rw [List.find?_cons_of_pos (by simp [hcapital, Nat.mod_one]), if_pos hcapital]
    dsimp only
    omega
  · have hnone : others.find? (fun run =>
        run.first ≤ n && n ≤ run.last && (n - run.first) % run.step == 0) = none := by
      rw [List.find?_eq_none]
      intro run hrun hfound
      have hfirst := hothers run hrun
      simp only [Bool.and_eq_true, decide_eq_true_eq] at hfound
      omega
    rw [List.find?_cons_of_neg (by simpa [Nat.mod_one] using hcapital), hnone, if_neg hcapital]

/-- A character of ASCII on its own. -/
theorem lower_ascii {c : Char} (h : c.toNat < 128) :
    lower [.scalar c] = [.scalar (Char.ofNat (lowerAscii c.toNat))] := by
  have hsigma : ¬ (TextUnit.scalar c).IsSigma := by
    rw [TextUnit.IsSigma, TextUnit.codePoint]
    omega
  have hsmall : lowerAscii c.toNat < 0xD800 := by
    unfold lowerAscii
    split <;> omega
  rw [lower, lowerAfter_cons, lowerBetween_of_not_isSigma hsigma, lowerAfter, List.append_nil,
    TextUnit.lower, TextUnit.codePoint, if_neg (by omega), lowerCodePoint_ascii h,
    TextUnit.ofCodePoint, dif_neg (by omega)]

end Text

namespace GeneratedFile

theorem steady_generatedSuffix : ∀ v ∈ generatedSuffix, v ∉ Text.unsteady := by
  decide

theorem steady_componentSuffix : ∀ v ∈ componentSuffix, v ∉ Text.unsteady := by
  decide

theorem flatMap_lower_generatedSuffix :
    generatedSuffix.flatMap TextUnit.lower = generatedSuffix := by
  decide +kernel

/-- Generated files end in their suffix. -/
theorem suffix_nameOf (name : Text) : generatedSuffix <:+ nameOf name :=
  (Text.suffix_lower_iff steady_generatedSuffix).mpr
    ⟨generatedSuffix, List.suffix_append _ _, flatMap_lower_generatedSuffix⟩

end GeneratedFile

end SfcProxy
