import Mathlib.Algebra.Order.Field.Power
import Mathlib.Tactic.FieldSimp
import Mathlib.Tactic.Linarith
import Mathlib.Tactic.Positivity
import Mathlib.Tactic.Ring
import SfcProxy.Double.Basic

/-!
# Rounding

Rounding a quotient finds an exponent that leaves it 53 binary digits, or fewer at the least
exponent, and takes the nearest whole number of that unit. Both are determined by the quotient as a
rational number, so quotients that are equal are rounded alike, and so are decimals that stand for
the same number.

What rounding gives is in one form. A quotient that lies next to a value in that form, nearer than
half the distance to the values around it, is rounded to it.

## Main definitions

* `Nearest`, `Fits`: the whole number nearest to a quotient, and the exponent at which it is taken
* `Normal`, `Rounded`: the form of a value above zero, and of all values
* `Near`: a quotient lies next to a value

## Main results

* `round_eq`, `round_congr`: rounding depends on the quotient alone
* `rounded_ofDecimal`, `rounded_addInt`: what is read and what is added is rounded
* `round_near`: a quotient next to a value is rounded to it
* `ofDecimal_congr`: decimals that stand for the same number are read as the same value
-/

namespace SfcProxy.Double

/-! ## Rounding -/

/-- A whole number is nearest to a quotient, and even if another one is as near. -/
def Nearest (x : ℚ) (q : ℕ) : Prop :=
  |x - q| < 1 / 2 ∨ |x - q| = 1 / 2 ∧ q % 2 = 0

theorem Nearest.unique {x : ℚ} {q q' : ℕ} (h : Nearest x q) (h' : Nearest x q') : q = q' := by
  -- Two numbers that are as near are next to each other, and one of them is odd.
  have hnot : ∀ {q q' : ℕ}, Nearest x q → Nearest x q' → ¬ q < q' := by
    intro q q' h h' hlt
    have hle : |x - q| ≤ 1 / 2 := h.elim le_of_lt fun h => h.1.le
    have hle' : |x - q'| ≤ 1 / 2 := h'.elim le_of_lt fun h => h.1.le
    rw [abs_le] at hle hle'
    have hcast : (q : ℚ) + 1 ≤ q' := by exact_mod_cast hlt
    have hq : x - q = 1 / 2 := by linarith
    have hq' : x - q' = -(1 / 2) := by linarith
    have heven := h.resolve_left (by rw [hq]; norm_num)
    have heven' := h'.resolve_left (by rw [hq']; norm_num)
    have hsucc : q' = q + 1 := by
      have : (q' : ℚ) = q + 1 := by linarith
      exact_mod_cast this
    omega
  have := hnot h h'
  have := hnot h' h
  omega

/-- Rounding a quotient by what the division leaves. -/
theorem nearest_div (n : ℕ) {d : ℕ} (hd : 0 < d) :
    Nearest ((n : ℚ) / d)
      (if 2 * (n % d) > d ∨ (2 * (n % d) = d ∧ n / d % 2 = 1) then n / d + 1 else n / d) := by
  have hpos : (0 : ℚ) < d := by exact_mod_cast hd
  have hsplit : (n : ℚ) / d = (n / d : ℕ) + (n % d : ℕ) / d := by
    have hdiv : (n : ℚ) = d * (n / d : ℕ) + (n % d : ℕ) := by
      exact_mod_cast (Nat.div_add_mod n d).symm
    field_simp
    linarith
  have hrest : ((n % d : ℕ) : ℚ) / d < 1 := by
    rw [div_lt_one hpos]
    exact_mod_cast Nat.mod_lt n hd
  have hnonneg : (0 : ℚ) ≤ ((n % d : ℕ) : ℚ) / d := by positivity
  have habove : 2 * (n % d) > d ↔ (1 : ℚ) / 2 < ((n % d : ℕ) : ℚ) / d := by
    rw [lt_div_iff₀ hpos, ← mul_lt_mul_iff_right₀ (zero_lt_two' ℚ), gt_iff_lt,
      ← Nat.cast_lt (α := ℚ)]
    push_cast
    ring_nf
  have htie : 2 * (n % d) = d ↔ ((n % d : ℕ) : ℚ) / d = 1 / 2 := by
    rw [div_eq_div_iff hpos.ne' two_ne_zero, ← Nat.cast_inj (R := ℚ)]
    push_cast
    ring_nf
  simp only [habove, htie]
  rw [hsplit]
  generalize ((n % d : ℕ) : ℚ) / d = r at *
  generalize n / d = q
  split
  · rename_i hup
    have hdist : (q : ℚ) + r - (q + 1 : ℕ) = -(1 - r) := by push_cast; ring
    unfold Nearest
    rw [hdist, abs_neg, abs_of_nonneg (by linarith)]
    rcases hup with hup | ⟨htie, hodd⟩
    · exact .inl (by linarith)
    · exact .inr ⟨by linarith, by omega⟩
  · rename_i hdown
    rw [not_or, not_lt, not_and] at hdown
    have hdist : (q : ℚ) + r - q = r := by ring
    unfold Nearest
    rw [hdist, abs_of_nonneg hnonneg]
    rcases hdown.1.lt_or_eq with hlt | heq
    · exact .inl hlt
    · exact .inr ⟨heq, by have := hdown.2 heq; omega⟩

/-- An exponent at which a quotient is rounded: the quotient keeps 53 binary digits, or fewer at the
least exponent. -/
structure Fits (x : ℚ) (e : ℤ) : Prop where
  least : leastExponent ≤ e
  below : x < 2 ^ (e + 53)
  above : e = leastExponent ∨ 2 ^ (e + 52) ≤ x

theorem Fits.unique {x : ℚ} {e e' : ℤ} (h : Fits x e) (h' : Fits x e') : e = e' := by
  -- A greater exponent would leave fewer than 53 digits.
  have hnot : ∀ {e e' : ℤ}, Fits x e → Fits x e' → ¬ e < e' := by
    intro e e' h h' hlt
    have habove := h'.above.resolve_left (by have := h.least; omega)
    have hpow : (2 : ℚ) ^ (e + 53) ≤ 2 ^ (e' + 52) := zpow_le_zpow_right₀ one_le_two (by omega)
    linarith [h.below]
  have := hnot h h'
  have := hnot h' h
  omega

/-- A quotient of whole numbers divided by a power, as a quotient of whole numbers. -/
theorem div_zpow_eq {base : ℕ} (hbase : 0 < base) (num : ℕ) {den : ℕ} (hden : 0 < den) (e : ℤ) :
    ((if e < 0 then num * Nat.pow base e.natAbs else num : ℕ) : ℚ)
        / (if e < 0 then den else den * Nat.pow base e.natAbs : ℕ)
      = (num : ℚ) / den / (base : ℚ) ^ e := by
  have hpos : (0 : ℚ) < den := by exact_mod_cast hden
  have hbase : (0 : ℚ) < base := by exact_mod_cast hbase
  by_cases he : e < 0
  · obtain ⟨k, rfl⟩ : ∃ k : ℕ, e = -(k : ℤ) := ⟨e.natAbs, by omega⟩
    simp only [he, ↓reduceIte, Int.natAbs_neg, Int.natAbs_natCast, Nat.pow_eq]
    push_cast
    rw [zpow_neg, zpow_natCast]
    field_simp
  · obtain ⟨k, rfl⟩ : ∃ k : ℕ, e = (k : ℤ) := ⟨e.natAbs, by omega⟩
    simp only [he, ↓reduceIte, Int.natAbs_natCast, Nat.pow_eq]
    push_cast
    rw [zpow_natCast, div_div]

theorem scaled_pos {base : ℕ} (hbase : 0 < base) {den : ℕ} (hden : 0 < den) (e : ℤ) :
    0 < if e < 0 then den else den * Nat.pow base e.natAbs := by
  split
  · exact hden
  · exact Nat.mul_pos hden (Nat.pow_pos hbase)

theorem scaledDiv_spec (num : ℕ) {den : ℕ} (hden : 0 < den) (e : ℤ) :
    ∃ n d : ℕ, 0 < d ∧ scaledDiv num den e = (n / d, n % d, d) ∧
      (n : ℚ) / d = (num : ℚ) / den / 2 ^ e :=
  ⟨_, _, scaled_pos two_pos hden e, rfl, by exact_mod_cast div_zpow_eq two_pos num hden e⟩

theorem log2_bounds {n : ℕ} (h : 0 < n) :
    (2 : ℚ) ^ (n.log2 : ℤ) ≤ n ∧ (n : ℚ) < 2 ^ ((n.log2 : ℤ) + 1) := by
  have hle := Nat.log2_self_le h.ne'
  have hlt := @Nat.lt_log2_self n
  have hsucc : ((n.log2 : ℤ) + 1) = ((n.log2 + 1 : ℕ) : ℤ) := by push_cast; rfl
  rw [zpow_natCast, hsucc, zpow_natCast]
  exact ⟨by exact_mod_cast hle, by exact_mod_cast hlt⟩

/-- The lengths of two numbers in binary digits bound their quotient. -/
theorem div_bounds {num den : ℕ} (hnum : 0 < num) (hden : 0 < den) :
    (2 : ℚ) ^ ((num.log2 : ℤ) - den.log2 - 1) ≤ num / den ∧
      (num : ℚ) / den < 2 ^ ((num.log2 : ℤ) - den.log2 + 1) := by
  have hpos : (0 : ℚ) < den := by exact_mod_cast hden
  obtain ⟨hnumLow, hnumHigh⟩ := log2_bounds hnum
  obtain ⟨hdenLow, hdenHigh⟩ := log2_bounds hden
  generalize hlength : (num.log2 : ℤ) - den.log2 = length
  rw [le_div_iff₀ hpos, div_lt_iff₀ hpos]
  constructor
  · calc (2 : ℚ) ^ (length - 1) * den ≤ 2 ^ (length - 1) * 2 ^ ((den.log2 : ℤ) + 1) := by gcongr
      _ = 2 ^ (num.log2 : ℤ) := by
        rw [← zpow_add₀ two_ne_zero]
        congr 1
        omega
      _ ≤ num := hnumLow
  · calc (num : ℚ) < 2 ^ ((num.log2 : ℤ) + 1) := hnumHigh
      _ = 2 ^ (length + 1) * 2 ^ (den.log2 : ℤ) := by
        rw [← zpow_add₀ two_ne_zero]
        congr 1
        omega
      _ ≤ 2 ^ (length + 1) * den := by gcongr

theorem scale_fits {num den : ℕ} (hnum : 0 < num) (hden : 0 < den) :
    Fits ((num : ℚ) / den) (scale num den) := by
  obtain ⟨hlow, hhigh⟩ := div_bounds hnum hden
  unfold scale
  dsimp only
  generalize hguess : (num.log2 : ℤ) - (den.log2 : ℤ) - 52 = guess
  rw [show (num.log2 : ℤ) - den.log2 - 1 = guess + 51 by omega] at hlow
  rw [show (num.log2 : ℤ) - den.log2 + 1 = guess + 53 by omega] at hhigh
  have hquotient : (scaledDiv num den guess).1 < Nat.pow 2 52 ↔
      (num : ℚ) / den < 2 ^ (guess + 52) := by
    obtain ⟨n, d, hd, hdiv, hratio⟩ := scaledDiv_spec num hden guess
    have hd' : (0 : ℚ) < d := by exact_mod_cast hd
    rw [hdiv, Nat.pow_eq, Nat.div_lt_iff_lt_mul hd, ← Nat.cast_lt (α := ℚ), zpow_add₀ two_ne_zero,
      mul_comm ((2 : ℚ) ^ guess), ← div_lt_iff₀ (zpow_pos two_pos guess), ← hratio,
      div_lt_iff₀ hd']
    push_cast
    rfl
  -- Without the least exponent there are exactly 53 digits.
  have hexact : ∀ e : ℤ, (2 : ℚ) ^ (e + 52) ≤ num / den → (num : ℚ) / den < 2 ^ (e + 53) →
      Fits ((num : ℚ) / den) (max e leastExponent) := by
    intro e habove hbelow
    refine ⟨le_max_right _ _, hbelow.trans_le ?_, ?_⟩
    · exact zpow_le_zpow_right₀ one_le_two (by have := le_max_left e leastExponent; omega)
    · rcases le_total e leastExponent with hle | hle
      · exact .inl (max_eq_right hle)
      · exact .inr (by rwa [max_eq_left hle])
  split
  · rename_i hlt
    rw [hquotient] at hlt
    refine hexact _ ?_ ?_
    · convert hlow using 2
      ring
    · convert hlt using 2
      ring
  · rename_i hge
    rw [hquotient, not_lt] at hge
    exact hexact _ hge hhigh

/-- A rounded mantissa as a value: it may carry into a further digit, vanish, or be too large. -/
def assemble (negative : Bool) (q : ℕ) (e : ℤ) : Double :=
  let (q, e) := if q = 2 ^ 53 then (2 ^ 52, e + 1) else (q, e)
  if q = 0 then finite negative 0 0
  else if e > greatestExponent then infinite negative
  else finite negative q e

/-- Rounding depends on the quotient alone. -/
theorem round_eq (negative : Bool) {num den : ℕ} (hnum : 0 < num) (hden : 0 < den) {x : ℚ}
    (hx : (num : ℚ) / den = x) {e : ℤ} {q : ℕ} (hfits : Fits x e)
    (hnearest : Nearest (x / 2 ^ e) q) : round negative num den = assemble negative q e := by
  subst hx
  obtain rfl := (scale_fits hnum hden).unique hfits
  obtain ⟨n, d, hd, hdiv, hratio⟩ := scaledDiv_spec num hden (scale num den)
  unfold round
  rw [if_neg hnum.ne']
  dsimp only
  rw [hdiv]
  dsimp only
  rw [← hratio] at hnearest
  rw [(nearest_div n hd).unique hnearest]
  rfl

theorem round_congr (negative : Bool) {num den num' den' : ℕ} (hnum : 0 < num) (hden : 0 < den)
    (hnum' : 0 < num') (hden' : 0 < den') (h : (num : ℚ) / den = (num' : ℚ) / den') :
    round negative num den = round negative num' den' := by
  obtain ⟨n, d, hd, -, hratio⟩ := scaledDiv_spec num hden (scale num den)
  have hfits := scale_fits hnum hden
  have hnearest := nearest_div n hd
  rw [hratio] at hnearest
  rw [round_eq negative hnum hden rfl hfits hnearest,
    round_eq negative hnum' hden' h.symm hfits hnearest]

/-! ## Values in their one form -/

/-- The mantissa and the exponent of a value above zero, in the one form that rounding gives them:
53 binary digits, or fewer at the least exponent. -/
structure Normal (m : ℕ) (e : ℤ) : Prop where
  pos : 0 < m
  below : m < 2 ^ 53
  least : leastExponent ≤ e
  greatest : e ≤ greatestExponent
  full : e = leastExponent ∨ 2 ^ 52 ≤ m

/-- A value is in the form that rounding gives it. -/
def Rounded : Double → Prop
  | finite _ m e => m = 0 ∧ e = 0 ∨ Normal m e
  | infinite _ => True
  | nan => True

/-- A nearest mantissa at a fitting exponent makes a value in the one form. -/
theorem rounded_assemble (negative : Bool) {x : ℚ} {e : ℤ} {q : ℕ} (hfits : Fits x e)
    (hnearest : Nearest (x / 2 ^ e) q) : Rounded (assemble negative q e) := by
  have hpow : (0 : ℚ) < 2 ^ e := zpow_pos two_pos e
  have hclose : |x / 2 ^ e - q| ≤ 1 / 2 := hnearest.elim le_of_lt fun h => h.1.le
  rw [abs_le] at hclose
  have hbelow : x / 2 ^ e < 2 ^ 53 := by
    rw [div_lt_iff₀ hpow, ← zpow_natCast, ← zpow_add₀ two_ne_zero, add_comm]
    exact hfits.below
  have hq : q ≤ 2 ^ 53 := by
    have : (q : ℚ) < (2 ^ 53 + 1 : ℕ) := by
      push_cast
      linarith
    exact Nat.le_of_lt_succ (by exact_mod_cast this)
  have hfull : e = leastExponent ∨ 2 ^ 52 ≤ q := by
    refine hfits.above.imp_right fun habove => ?_
    have hx : (2 : ℚ) ^ 52 ≤ x / 2 ^ e := by
      rw [le_div_iff₀ hpow, ← zpow_natCast, ← zpow_add₀ two_ne_zero, add_comm]
      exact habove
    have : (2 ^ 52 : ℕ) < (q : ℚ) + 1 := by
      push_cast
      linarith
    exact Nat.le_of_lt_succ (by exact_mod_cast this)
  have hleast := hfits.least
  unfold assemble
  -- Rounding up can give one binary digit too many; then the mantissa is halved.
  by_cases hcarry : q = 2 ^ 53
  · rw [if_pos hcarry]
    dsimp only
    split
    · exact .inl ⟨rfl, rfl⟩
    · split
      · trivial
      · exact .inr ⟨by norm_num, by norm_num, by omega, by omega, .inr (le_refl _)⟩
  · rw [if_neg hcarry]
    dsimp only
    split
    · exact .inl ⟨rfl, rfl⟩
    · split
      · trivial
      · exact .inr ⟨by omega, by omega, by omega, by omega, hfull⟩

theorem rounded_round (negative : Bool) (num : ℕ) {den : ℕ} (hden : 0 < den) :
    Rounded (round negative num den) := by
  rcases Nat.eq_zero_or_pos num with rfl | hnum
  · exact .inl ⟨rfl, rfl⟩
  · obtain ⟨n, d, hd, -, hratio⟩ := scaledDiv_spec num hden (scale num den)
    have hnearest := nearest_div n hd
    rw [hratio] at hnearest
    rw [round_eq negative hnum hden rfl (scale_fits hnum hden) hnearest]
    exact rounded_assemble negative (scale_fits hnum hden) hnearest

theorem rounded_ofDecimal (negative : Bool) (digits count : ℕ) (exponent : ℤ) :
    Rounded (ofDecimal negative digits count exponent) := by
  unfold ofDecimal
  split
  · exact .inl ⟨rfl, rfl⟩
  · split
    · trivial
    · split
      · exact rounded_round _ _ (Nat.pow_pos (by norm_num))
      · exact rounded_round _ _ one_pos

/-- Every sum is rounded. -/
theorem rounded_addInt (x : Double) (n : ℤ) : Rounded (x.addInt n) := by
  have hint : Rounded (ofInt n) := rounded_round _ _ one_pos
  unfold addInt
  generalize ofInt n = y at hint
  cases x with
  | finite s m e =>
    cases y with
    | finite t k f =>
      rw [add]
      split
      · exact .inl ⟨rfl, rfl⟩
      · split
        · exact rounded_round _ _ (Nat.pow_pos two_pos)
        · exact rounded_round _ _ one_pos
    | infinite t => exact hint
    | nan => exact hint
  | infinite s =>
    cases y with
    | finite t k f => trivial
    | infinite t =>
      rw [add]
      split <;> trivial
    | nan => trivial
  | nan => cases y <;> trivial

/-! ## Quotients next to a value -/

/-- A quotient lies next to a value: nearer than half the distance to the values around it. Below a
power of two the values are twice as dense. -/
structure Near (x : ℚ) (m : ℕ) (e : ℤ) : Prop where
  close : |x / 2 ^ e - m| < 1 / 2
  dense : m = 2 ^ 52 → (m : ℚ) - x / 2 ^ e < 1 / 4

theorem round_near (negative : Bool) {m : ℕ} {e : ℤ} (h : Normal m e) {num den : ℕ} (hnum : 0 < num)
    (hden : 0 < den) {x : ℚ} (hx : (num : ℚ) / den = x) (hnear : Near x m e) :
    round negative num den = finite negative m e := by
  have hpow : (0 : ℚ) < 2 ^ e := zpow_pos two_pos e
  have hclose := hnear.close
  rw [abs_lt] at hclose
  have hm : (m : ℚ) + 1 ≤ 2 ^ 53 := by exact_mod_cast h.below
  have hbelow : x < 2 ^ (e + 53) := by
    have : x / 2 ^ e < 2 ^ 53 := by linarith
    rwa [div_lt_iff₀ hpow, ← zpow_natCast, ← zpow_add₀ two_ne_zero, add_comm] at this
  have hgreatest := h.greatest
  by_cases habove : e = leastExponent ∨ 2 ^ (e + 52) ≤ x
  · have hfits : Fits x e := ⟨h.least, hbelow, habove⟩
    rw [round_eq negative hnum hden hx hfits (.inl hnear.close), assemble,
      if_neg h.below.ne]
    dsimp only
    rw [if_neg h.pos.ne', if_neg (by omega)]
  · obtain ⟨hleast, hlow⟩ := not_or.mp habove
    rw [not_le] at hlow
    have hlow' : x / 2 ^ e < 2 ^ 52 := by
      rwa [div_lt_iff₀ hpow, ← zpow_natCast, ← zpow_add₀ two_ne_zero, add_comm]
    have hpower : m = 2 ^ 52 := by
      have hge := h.full.resolve_left hleast
      have : (m : ℚ) < (2 ^ 52 + 1 : ℕ) := by
        push_cast
        linarith
      have : m < 2 ^ 52 + 1 := by exact_mod_cast this
      omega
    have hdense := hnear.dense hpower
    rw [hpower] at hdense
    push_cast at hdense
    have hhalf : x / 2 ^ (e - 1) = 2 * (x / 2 ^ e) := by
      rw [zpow_sub_one₀ two_ne_zero]
      field_simp
    have hfits : Fits x (e - 1) := by
      refine ⟨by have := h.least; omega, ?_, .inr ?_⟩
      · rw [show e - 1 + 53 = e + 52 by ring]
        exact hlow
      · have : (2 : ℚ) ^ 51 ≤ x / 2 ^ e := by linarith
        rw [le_div_iff₀ hpow, ← zpow_natCast, ← zpow_add₀ two_ne_zero] at this
        rwa [show e - 1 + 52 = ((51 : ℕ) : ℤ) + e by push_cast; ring]
    have hnearest : Nearest (x / 2 ^ (e - 1)) (2 ^ 53) := by
      refine .inl ?_
      rw [hhalf, abs_lt]
      push_cast
      constructor <;> linarith
    rw [round_eq negative hnum hden hx hfits hnearest, assemble, if_pos rfl]
    dsimp only
    rw [if_neg (by norm_num), if_neg (by omega), hpower, sub_add_cancel]

/-! ## Decimals -/

theorem ofDecimal_eq_round (negative : Bool) {digits : ℕ} (hdigits : 0 < digits) {count : ℕ}
    {exponent : ℤ} (hlow : -400 ≤ exponent + count) (hhigh : exponent ≤ 400) :
    ∃ num den : ℕ, 0 < num ∧ 0 < den ∧ (num : ℚ) / den = digits * 10 ^ exponent ∧
      ofDecimal negative digits count exponent = round negative num den := by
  unfold ofDecimal
  rw [if_neg (by omega), if_neg (by omega)]
  split
  · rename_i hneg
    obtain ⟨k, rfl⟩ : ∃ k : ℕ, exponent = -(k : ℤ) := ⟨exponent.natAbs, by omega⟩
    refine ⟨_, _, hdigits, Nat.pow_pos (by norm_num), ?_, rfl⟩
    rw [Int.natAbs_neg, Int.natAbs_natCast, zpow_neg, zpow_natCast, div_eq_mul_inv]
    push_cast
    rfl
  · obtain ⟨k, rfl⟩ : ∃ k : ℕ, exponent = (k : ℤ) := ⟨exponent.natAbs, by omega⟩
    refine ⟨_, _, Nat.mul_pos hdigits (Nat.pow_pos (by norm_num)), one_pos, ?_, rfl⟩
    rw [Int.natAbs_natCast, zpow_natCast, Nat.cast_one, div_one]
    push_cast
    rfl

/-- Decimals that stand for the same number are read as the same value, within the exponents that
are computed. -/
theorem ofDecimal_congr (negative : Bool) {digits digits' count count' : ℕ} {exponent exponent' : ℤ}
    (hdigits : 0 < digits) (hdigits' : 0 < digits') (hlow : -400 ≤ exponent + count)
    (hlow' : -400 ≤ exponent' + count') (hhigh : exponent ≤ 400) (hhigh' : exponent' ≤ 400)
    (h : (digits : ℚ) * 10 ^ exponent = digits' * 10 ^ exponent') :
    ofDecimal negative digits count exponent = ofDecimal negative digits' count' exponent' := by
  obtain ⟨num, den, hnum, hden, hvalue, heq⟩ := ofDecimal_eq_round negative hdigits hlow hhigh
  obtain ⟨num', den', hnum', hden', hvalue', heq'⟩ :=
    ofDecimal_eq_round negative hdigits' hlow' hhigh'
  rw [heq, heq']
  exact round_congr negative hnum hden hnum' hden' (by rw [hvalue, hvalue', h])

end SfcProxy.Double
