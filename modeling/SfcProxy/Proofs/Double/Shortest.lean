import SfcProxy.Double.Shortest
import SfcProxy.Proofs.Double.Rounding

/-!
# Shortest decimals read back

A value is written with the fewest digits that read back as the value, and the search for them tries
one digit, two digits and so on. Up to sixteen digits it tests what it finds; seventeen digits are
taken without a test. They need none: the nearest decimal of seventeen digits lies next to the
value, for one unit of its last digit is at most a part in `10 ^ 16` of the value, and the values
around it are more than a part in `2 ^ 53` away.

## Main definitions

* `Found`: what a search comes to
* `Spells`: digits and the place of their decimal point are a written form of a value

## Main results

* `decimalPlace_spec`: the place of the decimal point is not too high
* `near_of_seventeen`: seventeen digits are enough
* `searchDigits_spec`, `shortest_spells`: what is written reads back
-/

namespace SfcProxy.Double

/-! ## The place of the decimal point -/

theorem ten_pow_le_two_pow : ∀ k < 1025, 10 ^ (k * 30103 / 100000) ≤ 2 ^ (k + 1) := by
  decide +kernel

theorem two_pow_le_ten_pow : ∀ k < 1076, 2 ^ k ≤ 10 ^ ((k * 30103 + 99999) / 100000) := by
  decide +kernel

/-- The guess at the place of the decimal point is at most two places too high. -/
theorem guess_le {length : ℤ} (hlow : -1075 ≤ length) (hhigh : length ≤ 1024) :
    (10 : ℚ) ^ ((length * 30103).fdiv 100000 - 2) ≤ 2 ^ (length - 1) := by
  rw [Int.fdiv_eq_ediv_of_nonneg _ (by norm_num)]
  have hten : (10 : ℚ) ≠ 0 := by norm_num
  rcases le_or_gt 0 length with hnonneg | hneg
  · obtain ⟨k, rfl⟩ := Int.eq_ofNat_of_zero_le hnonneg
    have hguess : (k : ℤ) * 30103 / 100000 = (k * 30103 / 100000 : ℕ) := by push_cast; rfl
    have hpow : (10 : ℚ) ^ (k * 30103 / 100000) ≤ 2 ^ (k + 1) := by
      exact_mod_cast ten_pow_le_two_pow k (by omega)
    rw [hguess, zpow_sub₀ hten, zpow_natCast, zpow_sub₀ two_ne_zero, zpow_natCast]
    rw [pow_succ] at hpow
    norm_num
    linarith [pow_pos (two_pos (α := ℚ)) k]
  · obtain ⟨k, rfl⟩ : ∃ k : ℕ, length = -(k : ℤ) := ⟨length.natAbs, by omega⟩
    have hguess : -(k : ℤ) * 30103 / 100000 = -(((k * 30103 + 99999) / 100000 : ℕ) : ℤ) := by
      push_cast
      omega
    have hpow : (2 : ℚ) ^ k ≤ 10 ^ ((k * 30103 + 99999) / 100000) := by
      exact_mod_cast two_pow_le_ten_pow k (by omega)
    generalize (k * 30103 + 99999) / 100000 = c at hguess hpow
    rw [hguess, zpow_sub₀ hten, zpow_neg, zpow_natCast, zpow_sub₀ two_ne_zero, zpow_neg,
      zpow_natCast]
    have hinv : ((10 : ℚ) ^ c)⁻¹ ≤ (2 ^ k)⁻¹ := inv_anti₀ (by positivity) hpow
    norm_num
    linarith [inv_pos.mpr (pow_pos (two_pos (α := ℚ)) k)]

theorem below_iff (num : ℕ) {den : ℕ} (hden : 0 < den) (k : ℤ) :
    (if k < 0 then decide (num * Nat.pow 10 k.natAbs < den)
      else decide (num < den * Nat.pow 10 k.natAbs)) = true ↔ (num : ℚ) / den < 10 ^ k := by
  have hone : ∀ n d : ℕ, 0 < d → (n < d ↔ (n : ℚ) / d < 1) := by
    intro n d hd
    rw [div_lt_one (by exact_mod_cast hd), Nat.cast_lt]
  have hscaled := div_zpow_eq (by norm_num : 0 < 10) num hden k
  have hpos := scaled_pos (by norm_num : 0 < 10) hden k
  rw [Nat.cast_ofNat] at hscaled
  rw [← div_lt_one (zpow_pos (by norm_num : (0 : ℚ) < 10) k), ← hscaled]
  by_cases hk : k < 0
  · simp only [hk, ↓reduceIte, decide_eq_true_eq] at hpos ⊢
    exact hone _ _ hpos
  · simp only [hk, ↓reduceIte, decide_eq_true_eq] at hpos ⊢
    exact hone _ _ hpos

/-- The place that is found is not too high, and within the exponents that are computed. -/
theorem decimalPlace_spec {num den : ℕ} (hnum : 0 < num) (hden : 0 < den)
    (hlow : (2 : ℚ) ^ (-1074 : ℤ) ≤ num / den) (hhigh : (num : ℚ) / den < 2 ^ (1024 : ℤ)) :
    (10 : ℚ) ^ (decimalPlace num den - 1) ≤ num / den ∧ -350 ≤ decimalPlace num den ∧
      decimalPlace num den ≤ 350 := by
  obtain ⟨habove, hbelow⟩ := div_bounds hnum hden
  unfold decimalPlace
  dsimp only
  generalize (num.log2 : ℤ) - (den.log2 : ℤ) = length at habove hbelow ⊢
  have hlengthLow : -1074 < length + 1 :=
    (zpow_lt_zpow_iff_right₀ one_lt_two).mp (hlow.trans_lt hbelow)
  have hlengthHigh : length - 1 < 1024 :=
    (zpow_lt_zpow_iff_right₀ one_lt_two).mp (habove.trans_lt hhigh)
  have hguess := guess_le (by omega : -1075 ≤ length) (by omega)
  have hbound : -330 ≤ (length * 30103).fdiv 100000 ∧ (length * 30103).fdiv 100000 ≤ 330 := by
    rw [Int.fdiv_eq_ediv_of_nonneg _ (by norm_num)]
    omega
  generalize (length * 30103).fdiv 100000 = guess at hguess hbound
  simp only [below_iff num hden]
  -- The guess keeps the first candidate low enough; a later one follows one that is too low.
  split
  · refine ⟨?_, by omega, by omega⟩
    rw [show guess - 1 - 1 = guess - 2 by ring]
    exact hguess.trans habove
  · rename_i hfirst
    split
    · exact ⟨not_lt.mp hfirst, by omega, by omega⟩
    · rename_i hsecond
      split
      · refine ⟨?_, by omega, by omega⟩
        rw [add_sub_cancel_right]
        exact not_lt.mp hsecond
      · rename_i hthird
        refine ⟨?_, by omega, by omega⟩
        rw [show guess + 2 - 1 = guess + 1 by ring]
        exact not_lt.mp hthird

/-! ## Seventeen digits -/

/-- The digits that are tried are next to the quotient, and the nearest ones come first. -/
theorem neighbours_spec (num : ℕ) {den : ℕ} (hden : 0 < den) (count : ℕ) (place : ℤ) :
    ∃ first second, neighbours num den count place = [first, second] ∧
      Nearest ((num : ℚ) / den / 10 ^ (place - count)) first ∧
      ∀ digits ∈ [first, second], (digits : ℚ) ≤ num / den / 10 ^ (place - count) + 1 := by
  have hscaled := div_zpow_eq (by norm_num : 0 < 10) num hden (place - count)
  have hpos := scaled_pos (by norm_num : 0 < 10) hden (place - count)
  unfold neighbours
  dsimp only
  generalize (if place - (count : ℤ) < 0 then num * Nat.pow 10 (place - count).natAbs else num) = n
    at hscaled ⊢
  generalize (if place - (count : ℤ) < 0 then den else den * Nat.pow 10 (place - count).natAbs) = d
    at hscaled hpos ⊢
  rw [Nat.cast_ofNat] at hscaled
  rw [← hscaled]
  have hnearest := nearest_div n hpos
  have hfloor : ((n / d : ℕ) : ℚ) ≤ n / d := by
    rw [le_div_iff₀ (by exact_mod_cast hpos)]
    exact_mod_cast Nat.div_mul_le_self n d
  have hsucc : ((n / d + 1 : ℕ) : ℚ) ≤ n / d + 1 := by
    push_cast
    linarith
  by_cases hup : 2 * (n % d) > d ∨ (2 * (n % d) = d ∧ n / d % 2 = 1)
  · rw [if_pos hup] at hnearest
    rw [if_neg (by omega)]
    refine ⟨_, _, rfl, hnearest, List.forall_mem_cons.mpr ⟨hsucc, ?_⟩⟩
    exact List.forall_mem_singleton.mpr (by linarith)
  · rw [if_neg hup] at hnearest
    rw [if_pos (by omega)]
    refine ⟨_, _, rfl, hnearest, List.forall_mem_cons.mpr ⟨by linarith, ?_⟩⟩
    exact List.forall_mem_singleton.mpr hsucc

/-- A value above zero as a quotient of whole numbers. -/
theorem normal_quotient (m : ℕ) (e : ℤ) :
    ((if e < 0 then m else m * Nat.pow 2 e.natAbs : ℕ) : ℚ)
        / (if e < 0 then Nat.pow 2 e.natAbs else 1 : ℕ) = m * 2 ^ e := by
  by_cases he : e < 0
  · obtain ⟨k, rfl⟩ : ∃ k : ℕ, e = -(k : ℤ) := ⟨e.natAbs, by omega⟩
    simp only [he, ↓reduceIte, Int.natAbs_neg, Int.natAbs_natCast, Nat.pow_eq]
    push_cast
    rw [zpow_neg, zpow_natCast, div_eq_mul_inv]
  · obtain ⟨k, rfl⟩ : ∃ k : ℕ, e = (k : ℤ) := ⟨e.natAbs, by omega⟩
    simp only [he, ↓reduceIte, Int.natAbs_natCast, Nat.pow_eq]
    push_cast
    rw [zpow_natCast, div_one]

theorem Normal.bounds {m : ℕ} {e : ℤ} (h : Normal m e) :
    (2 : ℚ) ^ (-1074 : ℤ) ≤ m * 2 ^ e ∧ (m : ℚ) * 2 ^ e < 2 ^ (1024 : ℤ) := by
  have hpow : (0 : ℚ) < 2 ^ e := zpow_pos two_pos e
  have hone : (1 : ℚ) ≤ m := by exact_mod_cast h.pos
  have hbelow : (m : ℚ) < 2 ^ 53 := by exact_mod_cast h.below
  constructor
  · calc (2 : ℚ) ^ (-1074 : ℤ) ≤ 2 ^ e := zpow_le_zpow_right₀ one_le_two h.least
      _ ≤ m * 2 ^ e := le_mul_of_one_le_left hpow.le hone
  · have hgreatest : e ≤ 971 := h.greatest
    calc (m : ℚ) * 2 ^ e < 2 ^ 53 * 2 ^ e := by gcongr
      _ = 2 ^ (53 + e) := by rw [zpow_add₀ two_ne_zero]; norm_cast
      _ ≤ 2 ^ (1024 : ℤ) := zpow_le_zpow_right₀ one_le_two (by omega)

/-- **Seventeen digits are enough**: the nearest decimal of that many digits lies next to the
value. -/
theorem near_of_seventeen {m : ℕ} {e : ℤ} (h : Normal m e) {place : ℤ} {digits : ℕ}
    (hplace : (10 : ℚ) ^ (place - 1) ≤ m * 2 ^ e)
    (hdigits : Nearest (m * 2 ^ e / 10 ^ (place - (17 : ℕ))) digits) :
    Near (digits * 10 ^ (place - (17 : ℕ))) m e := by
  have hpow : (0 : ℚ) < 2 ^ e := zpow_pos two_pos e
  have hunit : (0 : ℚ) < 10 ^ (place - (17 : ℕ)) := zpow_pos (by norm_num) _
  have hsmall : (10 : ℚ) ^ (place - (17 : ℕ)) / 2 ^ e * 10 ^ 16 ≤ m := by
    rw [div_mul_eq_mul_div, div_le_iff₀ hpow]
    calc (10 : ℚ) ^ (place - (17 : ℕ)) * 10 ^ 16 = 10 ^ (place - 1) := by
          rw [← zpow_natCast (10 : ℚ) 16, ← zpow_add₀ (by norm_num)]
          congr 1
          push_cast
          ring
      _ ≤ m * 2 ^ e := hplace
  have hclose : |(m : ℚ) * 2 ^ e / 10 ^ (place - (17 : ℕ)) - digits| ≤ 1 / 2 :=
    hdigits.elim le_of_lt fun h => h.1.le
  generalize (10 : ℚ) ^ (place - (17 : ℕ)) = unit at *
  have hdistance : |(digits : ℚ) * unit / 2 ^ e - m| ≤ unit / 2 ^ e / 2 := by
    have heq : (digits : ℚ) * unit / 2 ^ e - m
        = -((m * 2 ^ e / unit - digits) * (unit / 2 ^ e)) := by
      field_simp
      ring
    rw [heq, abs_neg, abs_mul, abs_of_pos (div_pos hunit hpow)]
    have := mul_le_mul_of_nonneg_right hclose (div_pos hunit hpow).le
    linarith
  generalize unit / 2 ^ e = part at hsmall hdistance
  have hbelow : (m : ℚ) < 2 ^ 53 := by exact_mod_cast h.below
  constructor
  · linarith
  · intro hpower
    rw [abs_le] at hdistance
    have hm : (m : ℚ) = 2 ^ 52 := by exact_mod_cast hpower
    linarith

/-! ## The shortest decimal -/

/-- What a search comes to: digits that read back as the value, at most so many of them, and next to
it. -/
structure Found (negative : Bool) (value : Double) (num den : ℕ) (place : ℤ) (last : ℕ)
    (digits count : ℕ) : Prop where
  reads : ofDecimal negative digits count (place - count) = value
  count_le : count ≤ last
  count_pos : 0 < count
  near : digits ∈ neighbours num den count place

theorem searchDigits_found {negative : Bool} {value : Double} {num den : ℕ} {place : ℤ} {last : ℕ}
    (hlast : Found negative value num den place last ((neighbours num den last place).headD 0)
      last) :
    ∀ fuel count, count + fuel = last → 0 < count →
      Found negative value num den place last
        (searchDigits negative value num den place fuel count).1
        (searchDigits negative value num den place fuel count).2
  | 0, count, hcount, hpos => by
    obtain rfl : count = last := hcount
    rw [searchDigits]
    exact hlast
  | fuel + 1, count, hcount, hpos => by
    rw [searchDigits]
    split
    · rename_i digits hfound
      have hfits := List.find?_some hfound
      exact ⟨of_decide_eq_true hfits, by omega, hpos, List.mem_of_find?_eq_some hfound⟩
    · exact searchDigits_found hlast fuel (count + 1) (by omega) (by omega)

/-- The search finds digits that read back as the value. -/
theorem searchDigits_spec (negative : Bool) {m : ℕ} {e : ℤ} (h : Normal m e) {num den : ℕ}
    (hnum : 0 < num) (hden : 0 < den) (hvalue : (num : ℚ) / den = m * 2 ^ e) :
    Found negative (finite negative m e) num den (decimalPlace num den) 17
      (searchDigits negative (finite negative m e) num den (decimalPlace num den) 16 1).1
      (searchDigits negative (finite negative m e) num den (decimalPlace num den) 16 1).2 := by
  obtain ⟨hlow, hhigh⟩ := h.bounds
  rw [← hvalue] at hlow hhigh
  obtain ⟨hplace, hplaceLow, hplaceHigh⟩ := decimalPlace_spec hnum hden hlow hhigh
  obtain ⟨digits, other, hneighbours, hnearest, -⟩ :=
    neighbours_spec num hden 17 (decimalPlace num den)
  rw [hvalue] at hplace hnearest
  generalize decimalPlace num den = place at hplace hplaceLow hplaceHigh hneighbours hnearest ⊢
  -- The nearest decimal of seventeen digits reads back, so the last try succeeds if no other did.
  have hnear := near_of_seventeen h hplace hnearest
  refine searchDigits_found ?_ 16 1 rfl one_pos
  rw [hneighbours, List.headD_cons]
  refine ⟨?_, le_refl _, by norm_num, by rw [hneighbours]; exact List.mem_cons_self⟩
  have hdigits : 0 < digits := by
    rcases Nat.eq_zero_or_pos digits with rfl | hpos
    · have hclose := hnear.close
      have : (1 : ℚ) ≤ m := by exact_mod_cast h.pos
      rw [Nat.cast_zero, zero_mul, zero_div, zero_sub, abs_neg, Nat.abs_cast] at hclose
      linarith
    · exact hpos
  have hlowest : -400 ≤ place - (17 : ℕ) + (17 : ℕ) := by omega
  obtain ⟨num', den', hnum', hden', hvalue', heq⟩ :=
    ofDecimal_eq_round negative hdigits hlowest (by omega)
  rw [heq]
  exact round_near negative h hnum' hden' hvalue' hnear

/-- Digits with the decimal point at a place are a written form of a value: every decimal that
stands for the same number is read as the value, and the exponents are not out of range. -/
structure Spells (negative : Bool) (m : ℕ) (e : ℤ) (digits : List Char) (place : ℤ) : Prop where
  isDigit : ∀ c ∈ digits, c.isDigit = true
  nonempty : digits ≠ []
  leading : digits = ['0'] ∧ place = 1 ∨ digits.head? ≠ some '0'
  low : -400 ≤ place
  high : place - digits.length ≤ 400
  reads : ∀ (whole count : ℕ) (exponent : ℤ), -400 ≤ exponent + count → exponent ≤ 400 →
    (whole : ℚ) * 10 ^ exponent
      = (Nat.ofDigitChars 10 digits 0 : ℕ) * 10 ^ (place - digits.length) →
    ofDecimal negative whole count exponent = finite negative m e

/-- Digits are what is kept of them, and zeros. -/
theorem exists_trailing_zeros (digits : List Char) :
    ∃ count,
      digits = (digits.reverse.dropWhile (· == '0')).reverse ++ List.replicate count '0' := by
  have hsplit := List.takeWhile_append_dropWhile (p := (· == '0')) (l := digits.reverse)
  have hzeros : digits.reverse.takeWhile (· == '0')
      = List.replicate (digits.reverse.takeWhile (· == '0')).length '0' := by
    refine List.eq_replicate_of_mem fun c hc => ?_
    exact eq_of_beq (List.all_eq_true.mp List.all_takeWhile c hc)
  refine ⟨(digits.reverse.takeWhile (· == '0')).length, ?_⟩
  rw [← List.reverse_replicate, ← hzeros, ← List.reverse_append, hsplit, List.reverse_reverse]

theorem ofDigitChars_lt {digits : List Char} (hdigits : ∀ c ∈ digits, c.isDigit = true) (init : ℕ) :
    Nat.ofDigitChars 10 digits init < (init + 1) * 10 ^ digits.length := by
  induction digits generalizing init with
  | nil => simp
  | cons c rest ih =>
    rw [List.forall_mem_cons] at hdigits
    have hc : c.toNat - '0'.toNat ≤ 9 := by
      have := (Char.isDigit_iff_toNat.mp hdigits.1).2
      have hzero : '0'.toNat = 48 := rfl
      have hnine : '9'.toNat = 57 := rfl
      omega
    rw [Nat.ofDigitChars_cons, List.length_cons, pow_succ, mul_comm (10 ^ rest.length), ← mul_assoc]
    refine (ih hdigits.2 _).trans_le (Nat.mul_le_mul_right _ ?_)
    omega

/-- The digits of a number above zero do not start with zero. -/
theorem head?_toDigits_ne_zero {n : ℕ} (h : 0 < n) : (Nat.toDigits 10 n).head? ≠ some '0' := by
  intro hhead
  obtain ⟨rest, hdigits⟩ := List.head?_eq_some_iff.mp hhead
  have hvalue : Nat.ofDigitChars 10 (Nat.toDigits 10 n) 0 = n :=
    Nat.ofDigitChars_toDigits (by norm_num) (by norm_num)
  have hisDigit : ∀ c ∈ rest, c.isDigit = true := by
    intro c hc
    have hmem : c ∈ Nat.toDigits 10 n := by
      rw [hdigits]
      exact List.mem_cons_of_mem _ hc
    exact Nat.isDigit_of_mem_toDigits (by norm_num) (by norm_num) hmem
  have hlt := ofDigitChars_lt hisDigit 0
  rw [hdigits, Nat.ofDigitChars_cons] at hvalue
  norm_num at hvalue hlt
  rw [hvalue] at hlt
  rcases Nat.eq_zero_or_pos rest.length with hzero | hpos
  · rw [hzero] at hlt
    omega
  · have hle := (Nat.length_toDigits_le_iff (by norm_num) hpos).mpr hlt
    rw [hdigits, List.length_cons] at hle
    omega

section Found

variable {negative : Bool} {m : ℕ} {e : ℤ} {num den : ℕ} {place : ℤ} {digits count : ℕ}

theorem Found.digits_pos (h : Found negative (finite negative m e) num den place 17 digits count)
    (hm : 0 < m) : 0 < digits := by
  rcases Nat.eq_zero_or_pos digits with rfl | hpos
  · have hreads := h.reads
    rw [ofDecimal, if_pos (.inl rfl)] at hreads
    obtain ⟨-, rfl, -⟩ := finite.inj hreads
    exact absurd hm (lt_irrefl 0)
  · exact hpos

/-- The number that was found is not out of range. -/
theorem Found.number_lt (h : Found negative (finite negative m e) num den place 17 digits count)
    (hden : 0 < den) (hhigh : (num : ℚ) / den < 2 ^ (1024 : ℤ)) (hplace : place ≤ 350) :
    (digits : ℚ) * 10 ^ (place - count) < 10 ^ (350 : ℤ) := by
  have hcount := h.count_pos
  obtain ⟨first, second, hneighbours, -, hle⟩ := neighbours_spec num hden count place
  have hunit : (0 : ℚ) < 10 ^ (place - count) := zpow_pos (by norm_num) _
  have hclose : (digits : ℚ) * 10 ^ (place - count) ≤ num / den + 10 ^ (place - count) := by
    have := mul_le_mul_of_nonneg_right (hle digits (hneighbours ▸ h.near)) hunit.le
    rwa [add_mul, one_mul, div_mul_cancel₀ _ hunit.ne'] at this
  have hunitLe : (10 : ℚ) ^ (place - count) ≤ 10 ^ (349 : ℤ) :=
    zpow_le_zpow_right₀ (by norm_num) (by omega)
  have hfinite : (2 : ℚ) ^ (1024 : ℤ) ≤ 10 ^ (349 : ℤ) := by
    exact_mod_cast (by decide +kernel : 2 ^ 1024 ≤ 10 ^ 349)
  have hquotient : (num : ℚ) / den < 10 ^ (349 : ℤ) := hhigh.trans_le hfinite
  have hbig : (0 : ℚ) < 10 ^ (349 : ℤ) := zpow_pos (by norm_num) _
  rw [show (350 : ℤ) = 349 + 1 from rfl, zpow_add_one₀ (by norm_num)]
  refine hclose.trans_lt ?_
  generalize (10 : ℚ) ^ (349 : ℤ) = big at hunitLe hquotient hbig ⊢
  linarith

/-- Digits that were found, without the zeros at their end, are a written form of the value. -/
theorem Found.spells (h : Found negative (finite negative m e) num den place 17 digits count)
    (hm : 0 < m) (hden : 0 < den) (hhigh : (num : ℚ) / den < 2 ^ (1024 : ℤ)) (hplaceLow : -350 ≤ place)
    (hplaceHigh : place ≤ 350) {kept : List Char} {zeros : ℕ}
    (hkept : Nat.toDigits 10 digits = kept ++ List.replicate zeros '0') :
    Spells negative m e kept (place + (((Nat.toDigits 10 digits).length : ℤ) - count)) := by
  have hcount := h.count_le
  have hcountPos := h.count_pos
  have hdigits := h.digits_pos hm
  have hvalue : Nat.ofDigitChars 10 (Nat.toDigits 10 digits) 0 = digits :=
    Nat.ofDigitChars_toDigits (by norm_num) (by norm_num)
  rw [hkept, Nat.ofDigitChars_append, Nat.ofDigitChars_replicate_zero] at hvalue
  have hnonempty : kept ≠ [] := by
    rintro rfl
    rw [Nat.ofDigitChars_nil, mul_zero] at hvalue
    omega
  have hlength : 0 < kept.length := List.length_pos_iff.mpr hnonempty
  have hplace : (place + (((Nat.toDigits 10 digits).length : ℤ) - count)) - kept.length
      = place - count + zeros := by
    rw [hkept, List.length_append, List.length_replicate]
    push_cast
    ring
  have hsame : (Nat.ofDigitChars 10 kept 0 : ℚ) * 10 ^ (place - count + zeros)
      = digits * 10 ^ (place - count) := by
    have hcast : (digits : ℚ) = 10 ^ zeros * Nat.ofDigitChars 10 kept 0 := by
      exact_mod_cast hvalue.symm
    rw [hcast, zpow_add₀ (by norm_num), zpow_natCast]
    ring
  constructor
  case isDigit =>
    intro c hc
    have hmem : c ∈ Nat.toDigits 10 digits := by
      rw [hkept]
      exact List.mem_append_left _ hc
    exact Nat.isDigit_of_mem_toDigits (by norm_num) (by norm_num) hmem
  case nonempty => exact hnonempty
  case leading =>
    have hhead := head?_toDigits_ne_zero hdigits
    rw [hkept, List.head?_append_of_ne_nil _ hnonempty] at hhead
    exact .inr hhead
  case low =>
    rw [hkept, List.length_append]
    push_cast
    omega
  case high =>
    rw [hplace]
    have hkeptPos : (1 : ℚ) ≤ Nat.ofDigitChars 10 kept 0 := by
      have : Nat.ofDigitChars 10 kept 0 ≠ 0 := by
        intro hzero
        rw [hzero, mul_zero] at hvalue
        omega
      exact_mod_cast Nat.one_le_iff_ne_zero.mpr this
    have hlt : (10 : ℚ) ^ (place - count + zeros) < 10 ^ (350 : ℤ) :=
      calc (10 : ℚ) ^ (place - count + zeros)
          ≤ Nat.ofDigitChars 10 kept 0 * 10 ^ (place - count + zeros) :=
            le_mul_of_one_le_left (zpow_pos (by norm_num) _).le hkeptPos
        _ = digits * 10 ^ (place - count) := hsame
        _ < 10 ^ (350 : ℤ) := h.number_lt hden hhigh hplaceHigh
    have := (zpow_lt_zpow_iff_right₀ (by norm_num : (1 : ℚ) < 10)).mp hlt
    omega
  case reads =>
    -- Every other spelling of this number reads as the digits that were found.
    intro whole count' exponent hlow hexponent heq
    rw [hplace, hsame] at heq
    have hwhole : 0 < whole := by
      rcases Nat.eq_zero_or_pos whole with rfl | hpos
      · have hpos : (0 : ℚ) < digits * 10 ^ (place - count) :=
          mul_pos (by exact_mod_cast hdigits) (zpow_pos (by norm_num) _)
        rw [Nat.cast_zero, zero_mul] at heq
        linarith
      · exact hpos
    rw [ofDecimal_congr negative hwhole hdigits hlow (by omega) hexponent (by omega) heq, h.reads]

end Found

theorem shortest_spells_normal (negative : Bool) {m : ℕ} {e : ℤ} (h : Normal m e) :
    Spells negative m e (shortest negative m e).1 (shortest negative m e).2 := by
  have hquotient := normal_quotient m e
  unfold shortest
  rw [if_neg h.pos.ne']
  dsimp only
  have hnum : 0 < if e < 0 then m else m * Nat.pow 2 e.natAbs := by
    split
    · exact h.pos
    · exact Nat.mul_pos h.pos (Nat.pow_pos two_pos)
  have hden : 0 < if e < 0 then Nat.pow 2 e.natAbs else 1 := by
    split
    · exact Nat.pow_pos two_pos
    · exact one_pos
  generalize (if e < 0 then m else m * Nat.pow 2 e.natAbs) = num at hquotient hnum ⊢
  generalize (if e < 0 then Nat.pow 2 e.natAbs else 1) = den at hquotient hden ⊢
  obtain ⟨hlow, hhigh⟩ := h.bounds
  rw [← hquotient] at hlow hhigh
  obtain ⟨-, hplaceLow, hplaceHigh⟩ := decimalPlace_spec hnum hden hlow hhigh
  have hfound := searchDigits_spec negative h hnum hden hquotient
  generalize decimalPlace num den = place at hplaceLow hplaceHigh hfound ⊢
  generalize searchDigits negative (finite negative m e) num den place 16 1 = found at hfound ⊢
  obtain ⟨zeros, hkept⟩ := exists_trailing_zeros (Nat.toDigits 10 found.1)
  have hspells := hfound.spells h.pos hden hhigh hplaceLow hplaceHigh hkept
  rwa [if_neg (by rw [List.isEmpty_iff]; exact hspells.nonempty)]

/-- **What is written reads back.** -/
theorem shortest_spells {negative : Bool} {m : ℕ} {e : ℤ} (h : Rounded (finite negative m e)) :
    Spells negative m e (shortest negative m e).1 (shortest negative m e).2 := by
  rcases h with ⟨rfl, rfl⟩ | h
  · have hzero : shortest negative 0 0 = (['0'], 1) := if_pos rfl
    rw [hzero]
    refine ⟨List.forall_mem_singleton.mpr rfl, List.cons_ne_nil _ _, .inl ⟨rfl, rfl⟩, by norm_num,
      by norm_num, ?_⟩
    intro whole count exponent _ _ hzero
    have hvalue : Nat.ofDigitChars 10 ['0'] 0 = 0 := rfl
    rw [hvalue, Nat.cast_zero, zero_mul, mul_eq_zero, or_iff_left (zpow_ne_zero _ (by norm_num)),
      Nat.cast_eq_zero] at hzero
    rw [ofDecimal, if_pos (.inl hzero)]
  · exact shortest_spells_normal negative h

end SfcProxy.Double
