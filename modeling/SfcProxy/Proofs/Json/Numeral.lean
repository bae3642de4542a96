import SfcProxy.Json.Reader
import SfcProxy.Json.Writer
import SfcProxy.Proofs.Double.Shortest

/-!
# Numbers read back

A number is read as far as it goes, so what stands behind it matters: nothing, a comma or a closing
bracket ends it. An integer is read from its decimal digits, and a value from its shortest decimal,
in whichever of the three ways that is laid out.

## Main definitions

* `Json.Ends`: what can stand behind a value
* `Json.Numeral.Written`: a text is how a number is written

## Main results

* `Json.scalar_of_numeral`: a text with a number in front is read as that number
* `Json.scalar_decimal`: an integer is read from its digits
* `Json.exists_numeral_layout`, `Json.scalar_finite`: a value is read from its written form
-/

namespace SfcProxy.Json

/-! ## Digits -/

theorem isDigit_eq (c : Char) : isDigit c = c.isDigit := by
  rw [Bool.eq_iff_iff, Char.isDigit_iff_toNat, isDigit, Bool.and_eq_true, decide_eq_true_iff,
    decide_eq_true_iff]
  rfl

theorem ofDigits_eq (digits : List Char) : ofDigits digits = Nat.ofDigitChars 10 digits 0 := by
  have hfold : ∀ init, digits.foldl (fun n c => n * 10 + (c.toNat - '0'.toNat)) init
      = Nat.ofDigitChars 10 digits init := by
    induction digits with
    | nil => exact fun _ => rfl
    | cons c rest ih =>
      intro init
      rw [List.foldl_cons, ih, Nat.ofDigitChars_cons, mul_comm]
  exact hfold 0

/-- The text does not go on with a digit. -/
def NoDigit : List Char → Prop
  | [] => True
  | c :: _ => c.isDigit = false

theorem span_digits {digits rest : List Char} (hdigits : ∀ c ∈ digits, c.isDigit = true)
    (hrest : NoDigit rest) : (digits ++ rest).span isDigit = (digits, rest) := by
  have hisDigit : ∀ c ∈ digits, isDigit c = true := fun c hc => by
    rw [isDigit_eq, hdigits c hc]
  rw [List.span_eq_takeWhile_dropWhile, List.takeWhile_append_of_pos hisDigit,
    List.dropWhile_append_of_pos hisDigit]
  cases rest with
  | nil => simp
  | cons c rest =>
    have hc : isDigit c = false := by rw [isDigit_eq, hrest]
    simp [hc]

/-! ## The parts of a number -/

/-- What can stand behind a value: nothing, a comma or a closing bracket. -/
def Ends : List Char → Prop
  | [] => True
  | c :: _ => c = ',' ∨ c = ']' ∨ c = '}'

theorem Ends.noDigit {rest : List Char} (h : Ends rest) : NoDigit rest := by
  cases rest with
  | nil => trivial
  | cons c rest => rcases h with rfl | rfl | rfl <;> rfl

theorem Ends.fraction {rest : List Char} (h : Ends rest) : Json.fraction rest = ([], rest) := by
  cases rest with
  | nil => rfl
  | cons c rest => rcases h with rfl | rfl | rfl <;> rfl

theorem Ends.exponent {rest : List Char} (h : Ends rest) : Json.exponent rest = (none, rest) := by
  cases rest with
  | nil => rfl
  | cons c rest => rcases h with rfl | rfl | rfl <;> rfl

theorem whole?_append {whole rest : List Char} (hdigits : ∀ c ∈ whole, c.isDigit = true)
    (hnonempty : whole ≠ []) (hleading : whole = ['0'] ∨ whole.head? ≠ some '0')
    (hrest : NoDigit rest) : whole? (whole ++ rest) = some (whole, rest) := by
  rcases hleading with rfl | hleading
  · rfl
  · cases whole with
    | nil => exact absurd rfl hnonempty
    | cons c whole =>
      have hc : isDigit c = true := by rw [isDigit_eq, hdigits c List.mem_cons_self]
      rw [List.cons_append, whole?, if_pos hc, ← List.cons_append, span_digits hdigits hrest]
      rintro rfl
      exact hleading rfl

theorem fraction_append {digits rest : List Char} (hdigits : ∀ c ∈ digits, c.isDigit = true)
    (hnonempty : digits ≠ []) (hrest : NoDigit rest) :
    fraction ('.' :: (digits ++ rest)) = (digits, rest) := by
  rw [fraction, span_digits hdigits hrest]
  cases digits with
  | nil => exact absurd rfl hnonempty
  | cons c digits => rfl

theorem signedDigits?_append {digits rest : List Char} (hdigits : ∀ c ∈ digits, c.isDigit = true)
    (hnonempty : digits ≠ []) (hrest : NoDigit rest) (negative : Bool) :
    signedDigits? ((if negative then '-' else '+') :: (digits ++ rest))
      = some (if negative then -(ofDigits digits : Int) else ofDigits digits, rest) := by
  have hspan := span_digits hdigits hrest
  obtain ⟨c, digits, rfl⟩ := List.exists_cons_of_ne_nil hnonempty
  cases negative with
  | false => simp only [Bool.false_eq_true, ↓reduceIte, signedDigits?, hspan]
  | true => simp only [↓reduceIte, signedDigits?, hspan]

theorem exponent_append (x : Int) {rest : List Char} (hrest : NoDigit rest) :
    exponent ('e' :: (Double.exponentText x ++ rest)) = (some x, rest) := by
  have htext : Double.exponentText x = (if decide (x < 0) then '-' else '+') ::
      (List.replicate (2 - (Nat.toDigits 10 x.natAbs).length) '0' ++ Nat.toDigits 10 x.natAbs) := by
    simp only [Double.exponentText, decide_eq_true_eq]
  have hdigits : ∀ c ∈ List.replicate (2 - (Nat.toDigits 10 x.natAbs).length) '0'
      ++ Nat.toDigits 10 x.natAbs, c.isDigit = true := by
    intro c hc
    rcases List.mem_append.mp hc with hc | hc
    · rw [List.eq_of_mem_replicate hc]
      rfl
    · exact Nat.isDigit_of_mem_toDigits (by norm_num) (by norm_num) hc
  have hvalue : ofDigits (List.replicate (2 - (Nat.toDigits 10 x.natAbs).length) '0'
      ++ Nat.toDigits 10 x.natAbs) = x.natAbs := by
    rw [ofDigits_eq, Nat.ofDigitChars_append, Nat.ofDigitChars_replicate_zero, mul_zero,
      Nat.ofDigitChars_toDigits (by norm_num) (by norm_num)]
  have hsigned : signedDigits? (Double.exponentText x ++ rest) = some (x, rest) := by
    rw [htext, List.cons_append, signedDigits?_append hdigits (by simp) hrest, hvalue]
    congr 2
    split
    · rename_i hneg
      have := of_decide_eq_true hneg
      omega
    · rename_i hnonneg
      rw [decide_eq_true_iff] at hnonneg
      omega
  simp only [exponent, hsigned]

/-! ## Written numbers -/

/-- Digits behind a point, if there are any. -/
def fractionPart (digits : List Char) : List Char :=
  if digits.isEmpty then [] else '.' :: digits

/-- An exponent behind its letter, if there is one. -/
def exponentPart : Option Int → List Char
  | none => []
  | some x => 'e' :: Double.exponentText x

/-- A text is the written form of a number without its sign. -/
structure Numeral.Written (n : Numeral) (text : List Char) : Prop where
  text_eq : text = n.whole ++ (fractionPart n.fraction ++ exponentPart n.exponent)
  isDigit : ∀ c ∈ n.whole ++ n.fraction, c.isDigit = true
  nonempty : n.whole ≠ []
  leading : n.whole = ['0'] ∨ n.whole.head? ≠ some '0'

theorem exponent_part (x? : Option Int) {rest : List Char} (hrest : Ends rest) :
    exponent (exponentPart x? ++ rest) = (x?, rest) ∧ NoDigit (exponentPart x? ++ rest) ∧
      fraction (exponentPart x? ++ rest) = ([], exponentPart x? ++ rest) := by
  cases x? with
  | none => exact ⟨hrest.exponent, hrest.noDigit, hrest.fraction⟩
  | some x => exact ⟨exponent_append x hrest.noDigit, rfl, rfl⟩

/-- A number is read from its written form. -/
theorem Numeral.Written.numeral?_eq {n : Numeral} {text rest : List Char} (h : n.Written text)
    (hrest : Ends rest) :
    numeral? ((if n.negative then ['-'] else []) ++ (text ++ rest)) = some (n, rest) := by
  obtain ⟨negative, whole, digits, x?⟩ := n
  obtain ⟨rfl, hdigits, hnonempty, hleading⟩ := h
  dsimp only at hdigits hnonempty hleading ⊢
  rw [List.forall_mem_append] at hdigits
  obtain ⟨hexponent, hnoDigit, hfraction⟩ := exponent_part x? hrest
  have htail : NoDigit (fractionPart digits ++ (exponentPart x? ++ rest)) ∧
      Json.fraction (fractionPart digits ++ (exponentPart x? ++ rest))
        = (digits, exponentPart x? ++ rest) := by
    unfold fractionPart
    split
    · rename_i hempty
      rw [List.isEmpty_iff] at hempty
      subst hempty
      exact ⟨hnoDigit, hfraction⟩
    · rename_i hsome
      rw [List.isEmpty_iff] at hsome
      exact ⟨rfl, fraction_append hdigits.2 hsome hnoDigit⟩
  have hwhole := whole?_append hdigits.1 hnonempty hleading htail.1
  rw [List.append_assoc, List.append_assoc]
  cases negative with
  | true =>
    rw [if_pos rfl, List.singleton_append, numeral?, hwhole]
    simp [htail.2, hexponent]
  | false =>
    have hminus : ∀ tail,
        whole ++ (fractionPart digits ++ (exponentPart x? ++ rest)) ≠ '-' :: tail := by
      obtain ⟨c, whole, rfl⟩ := List.exists_cons_of_ne_nil hnonempty
      rintro tail heq
      obtain rfl := (List.cons.inj heq).1
      exact absurd (hdigits.1 '-' List.mem_cons_self) (by decide)
    rw [if_neg Bool.false_ne_true, List.nil_append, numeral?, hwhole]
    · simp [htail.2, hexponent]
    · exact hminus

/-- A text with a number in front is read as that number. -/
theorem scalar_of_numeral {cs rest : List Char} {n : Numeral} (h : numeral? cs = some (n, rest)) :
    scalar cs = n.value.map (·, rest) := by
  unfold scalar
  split
  case h_8 => rw [h]; rfl
  all_goals
    exfalso
    simp [numeral?, whole?, isDigit] at h

/-! ## Integers -/

/-- An integer is read from its digits, unless they are too many. -/
theorem scalar_decimal {n : Int} (hn : n.natAbs < 10 ^ digitLimit) {rest : List Char}
    (hrest : Ends rest) : scalar ((if decide (n < 0) then ['-'] else []) ++
      (Nat.toDigits 10 n.natAbs ++ rest)) = .ok (.int n, rest) := by
  have hwritten : Numeral.Written ⟨decide (n < 0), Nat.toDigits 10 n.natAbs, [], none⟩
      (Nat.toDigits 10 n.natAbs) := by
    refine ⟨by simp [fractionPart, exponentPart], ?_, Nat.toDigits_ne_nil, ?_⟩
    · rw [List.append_nil]
      exact fun c => Nat.isDigit_of_mem_toDigits (by norm_num) (by norm_num)
    · rcases Nat.eq_zero_or_pos n.natAbs with hzero | hpos
      · exact .inl (by rw [hzero, Nat.toDigits_zero])
      · exact .inr (Double.head?_toDigits_ne_zero hpos)
  have hlength : (Nat.toDigits 10 n.natAbs).length ≤ digitLimit :=
    (Nat.length_toDigits_le_iff (by norm_num) (by decide)).mpr hn
  have hdigits : ofDigits (Nat.toDigits 10 n.natAbs) = n.natAbs := by
    rw [ofDigits_eq, Nat.ofDigitChars_toDigits (by norm_num) (by norm_num)]
  have hvalue : Numeral.value ⟨decide (n < 0), Nat.toDigits 10 n.natAbs, [], none⟩
      = .ok (.int n) := by
    simp only [Numeral.value, List.isEmpty_nil, Option.isNone_none, Bool.and_self, ↓reduceIte,
      Nat.not_lt.mpr hlength, hdigits, decide_eq_true_eq]
    congr 2
    split <;> omega
  rw [scalar_of_numeral (hwritten.numeral?_eq hrest), hvalue]
  rfl

/-! ## Values with a fraction or an exponent -/

/-- A number is read as a value: it has a fraction or an exponent, and stands for the digits that
spell the value, with zeros behind them or not. -/
theorem Numeral.value_of_spells {negative : Bool} {m : Nat} {e : Int} {digits : List Char}
    {place : Int} (h : Double.Spells negative m e digits place) {n : Numeral}
    (hnegative : n.negative = negative) (hreal : n.fraction ≠ [] ∨ n.exponent ≠ none) (zeros : Nat)
    (hdigits : ofDigits (n.whole ++ n.fraction) = 10 ^ zeros * ofDigits digits)
    (hplace : n.exponent.getD 0 - n.fraction.length + zeros = place - digits.length)
    (hlow : -400 ≤ n.exponent.getD 0 + n.whole.length) :
    n.value = .ok (.real (.finite negative m e)) := by
  have hhigh := h.high
  have hfloat : ¬ (n.fraction.isEmpty && n.exponent.isNone) = true := by
    rw [Bool.and_eq_true, List.isEmpty_iff, Option.isNone_iff_eq_none]
    tauto
  have hsame : (ofDigits (n.whole ++ n.fraction) : ℚ)
      * 10 ^ (n.exponent.getD 0 - (n.fraction.length : ℤ))
      = (Nat.ofDigitChars 10 digits 0 : ℕ) * 10 ^ (place - digits.length) := by
    rw [hdigits, ← hplace, zpow_add₀ (by norm_num), zpow_natCast, ofDigits_eq]
    push_cast
    ring
  rw [Numeral.value, if_neg hfloat, hnegative]
  dsimp only
  rw [h.reads _ _ _ ?_ (by omega) hsame]
  rw [List.length_append]
  push_cast
  omega

section Layout

variable {negative : Bool} {m : Nat} {e : Int} {digits : List Char} {place : Int}

theorem isDigit_of_mem_replicate {count : Nat} {c : Char} (h : c ∈ List.replicate count '0') :
    c.isDigit = true := by
  rw [List.eq_of_mem_replicate h]
  rfl

/-- The point stands in front of all digits. -/
theorem exists_numeral_fronted {zeros : Nat}
    (h : Double.Spells negative m e digits (-(zeros : Int))) :
    ∃ n : Numeral, n.Written ('0' :: '.' :: (List.replicate zeros '0' ++ digits)) ∧
      n.negative = negative ∧ n.value = .ok (.real (.finite negative m e)) := by
  refine ⟨⟨negative, ['0'], List.replicate zeros '0' ++ digits, none⟩, ?_, rfl, ?_⟩
  · refine ⟨by simp [fractionPart, exponentPart, h.nonempty], ?_, by simp, .inl rfl⟩
    rw [List.forall_mem_append, List.forall_mem_append]
    exact ⟨List.forall_mem_singleton.mpr rfl, fun c => isDigit_of_mem_replicate, h.isDigit⟩
  · refine Numeral.value_of_spells h rfl (.inl (by simp [h.nonempty])) 0 ?_ ?_ ?_
    all_goals dsimp only
    · rw [ofDigits_eq, Nat.ofDigitChars_append, Nat.ofDigitChars_append,
        Nat.ofDigitChars_replicate_zero, ofDigits_eq]
      simp [Nat.ofDigitChars]
    · simp only [List.length_append, List.length_replicate, Option.getD_none]
      push_cast
      omega
    · simp

/-- The point stands between the digits. -/
theorem exists_numeral_between {point : Nat} (h : Double.Spells negative m e digits point)
    (hpos : 0 < point) (hlt : point < digits.length) :
    ∃ n : Numeral, n.Written (digits.take point ++ '.' :: digits.drop point) ∧
      n.negative = negative ∧ n.value = .ok (.real (.finite negative m e)) := by
  have hfraction : digits.drop point ≠ [] := by
    rw [Ne, List.drop_eq_nil_iff]
    omega
  have hleading : digits.head? ≠ some '0' := by
    refine h.leading.resolve_left fun hzero => ?_
    rw [hzero.1, List.length_singleton] at hlt
    omega
  refine ⟨⟨negative, digits.take point, digits.drop point, none⟩, ?_, rfl, ?_⟩
  · refine ⟨by simp [fractionPart, exponentPart, hfraction], ?_, ?_, .inr ?_⟩
    · rw [List.take_append_drop]
      exact h.isDigit
    · rw [Ne, List.take_eq_nil_iff]
      exact not_or.mpr ⟨by omega, h.nonempty⟩
    · rwa [List.head?_take, if_neg (by omega)]
  · refine Numeral.value_of_spells h rfl (.inl hfraction) 0 ?_ ?_ ?_
    all_goals dsimp only
    · rw [List.take_append_drop, pow_zero, one_mul]
    · rw [Option.getD_none, List.length_drop]
      push_cast
      omega
    · rw [Option.getD_none]
      omega

/-- The point stands behind all digits, with zeros in between or not. -/
theorem exists_numeral_behind {zeros : Nat}
    (h : Double.Spells negative m e digits (digits.length + zeros : Nat)) :
    ∃ n : Numeral, n.Written (digits ++ List.replicate zeros '0' ++ ['.', '0']) ∧
      n.negative = negative ∧ n.value = .ok (.real (.finite negative m e)) := by
  refine ⟨⟨negative, digits ++ List.replicate zeros '0', ['0'], none⟩, ?_, rfl, ?_⟩
  · refine ⟨by simp [fractionPart, exponentPart], ?_, by simp [h.nonempty], ?_⟩
    · rw [List.forall_mem_append, List.forall_mem_append]
      exact ⟨⟨h.isDigit, fun c => isDigit_of_mem_replicate⟩, List.forall_mem_singleton.mpr rfl⟩
    · rcases h.leading with ⟨rfl, hplace⟩ | hhead
      · obtain rfl : zeros = 0 := by
          rw [List.length_singleton] at hplace
          omega
        exact .inl rfl
      · exact .inr (by rwa [List.head?_append_of_ne_nil _ h.nonempty])
  · refine Numeral.value_of_spells h rfl (.inl nofun) (zeros + 1) ?_ ?_ ?_
    all_goals dsimp only
    · rw [ofDigits_eq, Nat.ofDigitChars_append, Nat.ofDigitChars_append,
        Nat.ofDigitChars_replicate_zero, ← ofDigits_eq, pow_succ]
      simp [Nat.ofDigitChars]
      ring
    · rw [Option.getD_none, List.length_singleton]
      push_cast
      omega
    · rw [Option.getD_none]
      omega

/-- The point stands behind the first digit, and an exponent behind all of them. -/
theorem exists_numeral_exponent (h : Double.Spells negative m e digits place) :
    ∃ n : Numeral, n.Written (digits.take 1
        ++ (if (digits.drop 1).isEmpty then [] else '.' :: digits.drop 1)
        ++ 'e' :: Double.exponentText (place - 1)) ∧
      n.negative = negative ∧ n.value = .ok (.real (.finite negative m e)) := by
  have hlow := h.low
  obtain ⟨c, rest, rfl⟩ := List.exists_cons_of_ne_nil h.nonempty
  have hleading : c :: rest = ['0'] ∨ c ≠ '0' := by
    refine h.leading.imp And.left fun hhead => ?_
    rintro rfl
    exact hhead rfl
  refine ⟨⟨negative, [c], rest, some (place - 1)⟩, ?_, rfl, ?_⟩
  · refine ⟨by simp [fractionPart, exponentPart], h.isDigit, by simp, ?_⟩
    rcases hleading with heq | hne
    · exact .inl (by rw [(List.cons.inj heq).1])
    · exact .inr (by simpa using hne)
  · refine Numeral.value_of_spells h rfl (.inr nofun) 0 (by simp) ?_ ?_
    all_goals
      simp only [Option.getD_some, List.length_cons, List.length_nil]
      push_cast
      omega

/-- The written form of a value is that of a number, whichever way it is laid out. -/
theorem exists_numeral_layout (h : Double.Spells negative m e digits place) :
    ∃ n : Numeral, n.Written (Double.layout digits place) ∧ n.negative = negative ∧
      n.value = .ok (.real (.finite negative m e)) := by
  unfold Double.layout
  split
  · split
    · rename_i hplace
      obtain ⟨zeros, rfl⟩ : ∃ zeros : Nat, place = -(zeros : Int) := ⟨place.natAbs, by omega⟩
      rw [Int.natAbs_neg, Int.natAbs_natCast]
      exact exists_numeral_fronted h
    · rename_i hplace
      obtain ⟨point, rfl⟩ : ∃ point : Nat, place = point := ⟨place.toNat, by omega⟩
      dsimp only
      rw [Int.toNat_natCast]
      rcases Nat.lt_or_ge point digits.length with hlt | hge
      · rw [Nat.sub_eq_zero_of_le hlt.le, List.replicate_zero, List.append_nil,
          if_neg (by rw [List.isEmpty_iff, List.drop_eq_nil_iff]; omega)]
        exact exists_numeral_between h (by omega) hlt
      · obtain ⟨zeros, rfl⟩ := Nat.exists_eq_add_of_le hge
        rw [List.take_of_length_le hge, List.drop_of_length_le hge, Nat.add_sub_cancel_left]
        exact exists_numeral_behind h
  · exact exists_numeral_exponent h

end Layout

/-- A value is read from its written form. -/
theorem scalar_finite {negative : Bool} {m : Nat} {e : Int}
    (h : Double.Rounded (.finite negative m e)) {rest : List Char} (hrest : Ends rest) :
    scalar ((Double.finite negative m e).text specials ++ rest)
      = .ok (.real (.finite negative m e), rest) := by
  obtain ⟨n, hwritten, hnegative, hvalue⟩ := exists_numeral_layout (Double.shortest_spells h)
  have hread := hwritten.numeral?_eq hrest
  rw [hnegative] at hread
  rw [Double.text, List.append_assoc, scalar_of_numeral hread, hvalue]
  rfl

end SfcProxy.Json
