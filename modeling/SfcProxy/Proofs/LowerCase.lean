import SfcProxy.Proofs.Casing

/-!
# Lower case is final

A text in lower case is its own lower-case form. For the table of capitals this means that no form
that a code point takes is again in a run of capitals. The two forms that depend on more than one
unit are final as well: the final sigma, and the dot that comes from a capital I.

## Main results

* `lowerCodePoint_lowerCodePoint`: no lower-case code point is a capital
* `Text.lower_lower`: lower case is final
* `Text.lower_eq_self_of_small`: what comes to signs and digits is these already
-/

namespace SfcProxy

/-! ## Code points -/

theorem ofCodePoint_of_isValidChar {n : Nat} (h : n.isValidChar) :
    TextUnit.ofCodePoint n = .scalar (Char.ofNat n) := by
  rw [TextUnit.ofCodePoint, dif_neg]
  rintro ⟨hlow, hhigh⟩
  rcases h with h | h <;> omega

theorem ofCodePoint_codePoint (u : TextUnit) : TextUnit.ofCodePoint u.codePoint = u := by
  cases u with
  | scalar c =>
    have hvalid : c.toNat.isValidChar := c.valid
    rw [TextUnit.codePoint, ofCodePoint_of_isValidChar hvalid, Char.ofNat_toNat]
  | surrogate i =>
    rw [TextUnit.codePoint, TextUnit.ofCodePoint, dif_pos (by omega)]
    simp

theorem codePoint_inj {u v : TextUnit} (h : u.codePoint = v.codePoint) : u = v := by
  rw [← ofCodePoint_codePoint u, h, ofCodePoint_codePoint]

theorem codePoint_ofCodePoint_of_isValidChar {n : Nat} (h : n.isValidChar) :
    (TextUnit.ofCodePoint n).codePoint = n := by
  rw [ofCodePoint_of_isValidChar h, TextUnit.codePoint, Char.ofNat, dif_pos h]
  exact UInt32.toNat_ofNatLT ..

/-- A code point in lower case is that code point, or that of a character other than null. -/
theorem lowerCodePoint_cases (n : Nat) :
    lowerCodePoint n = n ∨ 0 < lowerCodePoint n ∧ (lowerCodePoint n).isValidChar := by
  have hruns : ∀ run ∈ Text.lowerRuns, 0 < run.image ∧
      (run.image + (run.last - run.first) < 0xD800 ∨
        0xDFFF < run.image ∧ run.image + (run.last - run.first) < 0x110000) := by
    decide +kernel
  unfold lowerCodePoint Text.CaseRun.map
  split
  · rename_i run hrun
    have hbounds := List.find?_some hrun
    simp only [Bool.and_eq_true, decide_eq_true_eq] at hbounds
    obtain ⟨hpositive, himage⟩ := hruns run (List.mem_of_find?_eq_some hrun)
    refine .inr ⟨by omega, ?_⟩
    rcases himage with himage | himage
    · exact .inl (by omega)
    · exact .inr (by omega)
  · exact .inl rfl

theorem codePoint_lower (u : TextUnit) :
    (TextUnit.ofCodePoint (lowerCodePoint u.codePoint)).codePoint = lowerCodePoint u.codePoint := by
  rcases lowerCodePoint_cases u.codePoint with hsame | ⟨-, hvalid⟩
  · rw [hsame, ofCodePoint_codePoint]
  · exact codePoint_ofCodePoint_of_isValidChar hvalid

namespace Text

/-- No code point that the one run maps to is mapped by the other: their intervals do not meet, or
the code points in between alternate. -/
def CaseRun.leaves (run other : CaseRun) : Bool :=
  (run.image + (run.last - run.first)).blt other.first || other.last.blt run.image ||
    (run.step.beq 2 && other.step.beq 2 && ((run.image + other.first) % 2).beq 1) ||
    (run.first.beq run.last && !((run.image - other.first) % other.step).beq 0)

theorem CaseRun.not_mapped_of_leaves {run other : CaseRun} (h : run.leaves other = true) {n : Nat}
    (hlow : run.first ≤ n) (hhigh : n ≤ run.last) (hstep : (n - run.first) % run.step = 0) :
    ¬ (other.first ≤ run.image + (n - run.first) ∧ run.image + (n - run.first) ≤ other.last ∧
      (run.image + (n - run.first) - other.first) % other.step = 0) := by
  rintro ⟨hfirst, hlast, hmod⟩
  simp only [leaves, Bool.or_eq_true, Bool.and_eq_true, Nat.blt_eq, Nat.beq_eq,
    Bool.not_eq_true'] at h
  rcases h with ((hbelow | habove) | ⟨⟨hrun, hother⟩, hodd⟩) | ⟨hsingle, hnot⟩
  · omega
  · omega
  · rw [hrun] at hstep
    rw [hother] at hmod
    omega
  · have hn : n - run.first = 0 := by omega
    rw [hn, Nat.add_zero] at hmod
    exact Nat.ne_of_beq_eq_false hnot hmod

end Text

/-- No lower-case code point is a capital. -/
theorem lowerCodePoint_lowerCodePoint (n : Nat) :
    lowerCodePoint (lowerCodePoint n) = lowerCodePoint n := by
  have hruns : (Text.lowerRuns.all fun run => Text.lowerRuns.all run.leaves) = true := by
    decide +kernel
  cases hfound : Text.lowerRuns.find? fun run =>
      run.first ≤ n && n ≤ run.last && (n - run.first) % run.step == 0 with
  | none =>
    have hsame : lowerCodePoint n = n := by
      rw [lowerCodePoint, Text.CaseRun.map, hfound]
    rw [hsame, hsame]
  | some run =>
    have himage : lowerCodePoint n = run.image + (n - run.first) := by
      rw [lowerCodePoint, Text.CaseRun.map, hfound]
    have hn := List.find?_some hfound
    simp only [Bool.and_eq_true, decide_eq_true_eq, beq_iff_eq] at hn
    have hleaves := List.all_eq_true.mp (List.all_eq_true.mp hruns run
      (List.mem_of_find?_eq_some hfound))
    have hnone : Text.lowerRuns.find? (fun other =>
        other.first ≤ lowerCodePoint n && lowerCodePoint n ≤ other.last &&
          (lowerCodePoint n - other.first) % other.step == 0) = none := by
      rw [List.find?_eq_none]
      intro other hother hmapped
      simp only [Bool.and_eq_true, decide_eq_true_eq, beq_iff_eq, himage] at hmapped
      exact Text.CaseRun.not_mapped_of_leaves (hleaves other hother) hn.1.1 hn.1.2 hn.2
        ⟨hmapped.1.1, hmapped.1.2, hmapped.2⟩
    rw [lowerCodePoint, Text.CaseRun.map, hnone]

/-! ## Texts -/

/-- The unit is its own lower-case form, wherever it stands. -/
def TextUnit.IsLower (u : TextUnit) : Prop :=
  ¬ u.IsSigma ∧ u.lower = [u]

namespace Text

theorem isLower_ofCodePoint {u : TextUnit} (h : u.codePoint ≠ 0x130) :
    (TextUnit.ofCodePoint (lowerCodePoint u.codePoint)).IsLower := by
  have hfinal := lowerCodePoint_lowerCodePoint u.codePoint
  constructor
  · -- the capital sigma has another form
    intro hsigma
    rw [TextUnit.IsSigma, codePoint_lower] at hsigma
    rw [hsigma] at hfinal
    exact absurd hfinal (by decide +kernel)
  · have hdotted : lowerCodePoint u.codePoint ≠ 0x130 := by
      have hruns : ∀ run ∈ lowerRuns,
          0x130 < run.image ∨ run.image + (run.last - run.first) < 0x130 := by
        decide +kernel
      unfold lowerCodePoint CaseRun.map
      split
      · rename_i run hrun
        have hbounds := List.find?_some hrun
        simp only [Bool.and_eq_true, decide_eq_true_eq] at hbounds
        rcases hruns run (List.mem_of_find?_eq_some hrun) with himage | himage <;> omega
      · exact h
    rw [TextUnit.lower, codePoint_lower, if_neg hdotted, hfinal]

theorem isLower_lowerBetween (before : Text) (u : TextUnit) (rest : Text) :
    ∀ v ∈ lowerBetween before u rest, v.IsLower := by
  have hclosed : ∀ c ∈ [0x3C2, 0x69, 0x307],
      (TextUnit.scalar (Char.ofNat c)).codePoint ≠ 0x3A3 ∧
        (TextUnit.scalar (Char.ofNat c)).lower = [.scalar (Char.ofNat c)] := by
    decide +kernel
  unfold lowerBetween TextUnit.lower
  split
  · exact List.forall_mem_singleton.mpr (hclosed 0x3C2 (by simp))
  split
  · exact List.forall_mem_cons.mpr ⟨hclosed 0x69 (by simp),
      List.forall_mem_singleton.mpr (hclosed 0x307 (by simp))⟩
  · rename_i hplain
    exact List.forall_mem_singleton.mpr (isLower_ofCodePoint hplain)

theorem isLower_lowerAfter (before t : Text) : ∀ v ∈ lowerAfter before t, v.IsLower := by
  induction t generalizing before with
  | nil => exact List.forall_mem_nil _
  | cons u t ih =>
    rw [lowerAfter_cons]
    exact List.forall_mem_append.mpr ⟨isLower_lowerBetween before u t, ih (u :: before)⟩

theorem lower_eq_self {t : Text} (h : ∀ u ∈ t, u.IsLower) : t.lower = t := by
  rw [lower, lowerAfter_eq_flatMap fun u hu => (h u hu).1]
  induction t with
  | nil => rfl
  | cons u t ih =>
    rw [List.forall_mem_cons] at h
    rw [List.flatMap_cons, h.1.2, ih h.2, List.singleton_append]

/-- **Lower case is final.** -/
theorem lower_lower (t : Text) : t.lower.lower = t.lower :=
  lower_eq_self (isLower_lowerAfter [] t)

/-! ## Signs and digits -/

theorem lowerBetween_of_small {before rest : Text} {u : TextUnit}
    (h : ∀ v ∈ lowerBetween before u rest, v.codePoint ≤ 0x60) :
    lowerBetween before u rest = [u] := by
  unfold lowerBetween TextUnit.lower at h ⊢
  split at h
  · exact absurd (h _ (List.mem_singleton_self _)) (by decide)
  · rename_i hsigma
    rw [if_neg hsigma]
    split at h
    · exact absurd (h _ List.mem_cons_self) (by decide)
    · rename_i hdotted
      have hruns : ∀ run ∈ lowerRuns, 0x60 < run.image := by
        decide +kernel
      have hsmall := h _ (List.mem_singleton_self _)
      rw [codePoint_lower] at hsmall
      have hsame : lowerCodePoint u.codePoint = u.codePoint := by
        unfold lowerCodePoint CaseRun.map at hsmall ⊢
        split at hsmall
        · rename_i run hrun
          have := hruns run (List.mem_of_find?_eq_some hrun)
          omega
        · rfl
      rw [if_neg hdotted, hsame, ofCodePoint_codePoint]

theorem lowerAfter_of_small {before t : Text} (h : ∀ v ∈ lowerAfter before t, v.codePoint ≤ 0x60) :
    lowerAfter before t = t := by
  induction t generalizing before with
  | nil => rfl
  | cons u t ih =>
    rw [lowerAfter_cons, List.forall_mem_append] at h
    rw [lowerAfter_cons, lowerBetween_of_small h.1, ih h.2, List.singleton_append]

/-- What comes to signs and digits is these already. -/
theorem lower_eq_self_of_small {t : Text} (h : ∀ v ∈ t.lower, v.codePoint ≤ 0x60) : t.lower = t :=
  lowerAfter_of_small h

end Text

end SfcProxy
