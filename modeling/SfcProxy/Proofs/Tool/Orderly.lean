import SfcProxy.Tool.Utility.Sorting

/-!
# Comparisons that order

A comparison says by the sign of a number what comes first. It orders what it compares if it never
goes round in a circle. That is so of a comparison by parts as soon as it is so of those of the parts,
whether one part decides after another or each one is followed by the rest.

## Main definitions

* `Orderly`: a comparison that orders what it compares
* `stepwise`: a comparison part by part

## Main results

* `Orderly.lex`, `Orderly.signed`: comparisons made of others
* `orderly_stepwise`, `Orderly.of_steps`: comparisons part by part
-/

namespace SfcProxy.Tool.Sorting

/-! ## Comparisons -/

/-- A comparison orders what it compares. -/
structure Orderly {α : Type} (f : α → α → Int) : Prop where
  swap : ∀ a b, f b a = -f a b
  trans : ∀ a b c, f a b ≤ 0 → f b c ≤ 0 → f a c ≤ 0

namespace Orderly

variable {α β : Type} {f g : α → α → Int}

theorem lt_of_lt_of_le (hf : Orderly f) {a b c : α} (h : f a b < 0) (h' : f b c ≤ 0) :
    f a c < 0 := by
  have hback := hf.trans b c a h'
  have hswap := hf.swap a c
  have hswap' := hf.swap a b
  omega

theorem lt_of_le_of_lt (hf : Orderly f) {a b c : α} (h : f a b ≤ 0) (h' : f b c < 0) :
    f a c < 0 := by
  have hback := fun hca => hf.trans c a b hca h
  have hswap := hf.swap a c
  have hswap' := hf.swap b c
  omega

theorem same (f : α → α → Int) (h : ∀ a b, f a b = 0) : Orderly f where
  swap a b := by rw [h, h, Int.neg_zero]
  trans a b c _ _ := Int.le_of_eq (h a c)

theorem onFun (hf : Orderly f) (part : β → α) : Orderly fun a b => f (part a) (part b) where
  swap a b := hf.swap (part a) (part b)
  trans a b c := hf.trans (part a) (part b) (part c)

theorem neg (hf : Orderly f) : Orderly fun a b => -f a b where
  swap a b := by rw [hf.swap a b]
  trans a b c h h' := by
    rw [← hf.swap] at h h' ⊢
    exact hf.trans c b a h' h

theorem self (hf : Orderly f) (a : α) : f a a = 0 := by
  have hswap := hf.swap a a
  omega

theorem eq_trans (hf : Orderly f) {a b c : α} (h : f a b = 0) (h' : f b c = 0) : f a c = 0 := by
  have hac := hf.trans a b c (Int.le_of_eq h) (Int.le_of_eq h')
  have hca := hf.trans c b a (by rw [hf.swap b c]; omega) (by rw [hf.swap a b]; omega)
  rw [hf.swap a c] at hca
  omega

/-- A second comparison decides what the first one does not tell apart. -/
theorem lex (hf : Orderly f) (hg : Orderly g) :
    Orderly fun a b => if f a b = 0 then g a b else f a b where
  swap a b := by
    rw [hf.swap a b, hg.swap a b]
    simp only [Int.neg_eq_zero]
    split <;> rfl
  trans a b c h h' := by
    by_cases hab : f a b = 0
    · rw [if_pos hab] at h
      by_cases hbc : f b c = 0
      · rw [if_pos hbc] at h'
        rw [if_pos (hf.eq_trans hab hbc)]
        exact hg.trans a b c h h'
      · rw [if_neg hbc] at h'
        have hac : f a c < 0 := hf.lt_of_le_of_lt (Int.le_of_eq hab) (by omega)
        rw [if_neg (by omega)]
        exact Int.le_of_lt hac
    · rw [if_neg hab] at h
      have hbc : f b c ≤ 0 := by
        split at h'
        next hbc => exact Int.le_of_eq hbc
        next => exact h'
      have hlt : f a b < 0 := by omega
      have hac := hf.lt_of_lt_of_le hlt hbc
      rw [if_neg (by omega)]
      exact Int.le_of_lt hac

/-- What is negative comes first, and among itself the other way round. -/
theorem signed (hf : Orderly f) (negative : α → Bool) : Orderly fun a b =>
    if negative a then if negative b then f b a else -1 else if negative b then 1 else f a b where
  swap a b := by
    cases negative a <;> cases negative b <;> simp [hf.swap a b]
  trans a b c := by
    have h := hf.trans a b c
    have h' := hf.trans c b a
    cases negative a <;> cases negative b <;> cases negative c <;> simp
    · exact h
    · exact fun hba hcb => h' hcb hba

end Orderly

/-! ## Values and bytes -/

theorem orderly_compareValues : Orderly compareValues where
  swap a b := by
    unfold compareValues
    split <;> split <;> omega
  trans a b c h h' := by
    unfold compareValues at *
    split at h <;> split at h' <;> split <;> omega

theorem compareValues_of_lt {a b : Int} (h : a < b) : compareValues a b = -1 :=
  if_pos h

theorem compareValues_of_gt {a b : Int} (h : b < a) : compareValues a b = 1 := by
  rw [compareValues, if_neg (by omega), if_pos h]

theorem compareValues_eq_zero_iff {a b : Int} : compareValues a b = 0 ↔ a = b := by
  unfold compareValues
  split
  next => omega
  next => split <;> omega

/-! ## Comparisons part by part -/

section Stepwise

variable {α : Type} {first : α → α → Int} {rest : α → α}

/-- A comparison of the first parts, then of the first parts of the rests, and so on. -/
def stepwise (first : α → α → Int) (rest : α → α) : Nat → α → α → Int
  | 0, _, _ => 0
  | n + 1, a, b => if first a b = 0 then stepwise first rest n (rest a) (rest b) else first a b

theorem orderly_stepwise (h : Orderly first) (n : Nat) : Orderly (stepwise first rest n) := by
  induction n with
  | zero => exact .same _ fun _ _ => rfl
  | succ n ih => exact h.lex (ih.onFun rest)

/-- If rests get shorter, more steps than there are parts make no difference. -/
theorem stepwise_stable (h : Orderly first) {size : α → Nat}
    (empty : ∀ {a b}, size a = 0 → size b = 0 → a = b) (shorter : ∀ a, size (rest a) ≤ size a - 1)
    {n m : Nat} {a b : α} (hn : size a + size b ≤ n) (hm : size a + size b ≤ m) :
    stepwise first rest n a b = stepwise first rest m a b := by
  by_cases hempty : size a + size b = 0
  · obtain rfl := empty (Nat.eq_zero_of_add_eq_zero_right hempty)
      (Nat.eq_zero_of_add_eq_zero_left hempty)
    rw [(orderly_stepwise h n).self, (orderly_stepwise h m).self]
  · induction n generalizing m a b with
    | zero => omega
    | succ n ih =>
      obtain ⟨m, rfl⟩ := Nat.exists_eq_add_one.mpr (by omega : 0 < m)
      have ha := shorter a
      have hb := shorter b
      have hrest : stepwise first rest n (rest a) (rest b)
          = stepwise first rest m (rest a) (rest b) := by
        by_cases hrests : size (rest a) + size (rest b) = 0
        · obtain hsame := empty (Nat.eq_zero_of_add_eq_zero_right hrests)
            (Nat.eq_zero_of_add_eq_zero_left hrests)
          rw [hsame, (orderly_stepwise h n).self, (orderly_stepwise h m).self]
        · exact ih (by omega) (by omega) hrests
      rw [stepwise, stepwise, hrest]

/-- A comparison orders if enough steps of comparisons that do come to the same. -/
theorem Orderly.of_steps {f : α → α → Int} {steps : Nat → α → α → Int}
    (h : ∀ n, Orderly (steps n)) {size : α → Nat}
    (enough : ∀ {n a b}, size a + size b ≤ n → f a b = steps n a b) : Orderly f where
  swap a b := by
    rw [enough (Nat.le_refl (size b + size a)), enough (Nat.le_of_eq (Nat.add_comm _ _))]
    exact (h _).swap a b
  trans a b c hab hbc := by
    rw [enough (by omega : _ ≤ size a + size b + size c)] at hab hbc ⊢
    exact (h _).trans a b c hab hbc

end Stepwise

end SfcProxy.Tool.Sorting
