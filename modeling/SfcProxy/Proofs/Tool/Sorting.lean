import Mathlib.Data.List.Chain
import SfcProxy.Proofs.Tool.Orderly

/-!
# What sorting comes to

However keys are combined, and whatever they take parts of lines for, lines are compared in a way that
orders them. So the lines that come out are those that went in, in order, and whether lines are in
order can be told from neighbours alone.

## Main definitions

* `Order.Before`: a line may stand in front of another one

## Main results

* `Order.orderly_compare`: lines are ordered
* `sort_spec`: what sorting does to lines
* `sort_eq_of_perm`: lines that are sorted may come in any order
* `disorder?_eq_none_iff`, `disorder?_eq_some`: the test whether lines are in order
* `dropRepeats_spec`: what is left of equal lines
-/

namespace SfcProxy.Tool.Sorting

/-! ## Bytes -/

/-- The code of the first octet; the end of a text comes first. -/
def frontCode : Octets → Int
  | [] => -1
  | c :: _ => c.toNat

theorem compareBytes_eq_stepwise {n : Nat} {a b : Octets} (hn : a.length + b.length ≤ n) :
    compareBytes a b
      = stepwise (fun a b => compareValues (frontCode a) (frontCode b)) List.tail n a b := by
  have hfront : Orderly fun a b : Octets => compareValues (frontCode a) (frontCode b) :=
    orderly_compareValues.onFun frontCode
  induction n generalizing a b with
  | zero =>
    obtain rfl := List.eq_nil_of_length_eq_zero (Nat.eq_zero_of_add_eq_zero_right
      (Nat.le_zero.mp hn))
    obtain rfl := List.eq_nil_of_length_eq_zero (Nat.eq_zero_of_add_eq_zero_left
      (Nat.le_zero.mp hn))
    rfl
  | succ n ih =>
    rw [stepwise]
    cases a with
    | nil =>
      cases b with
      | nil =>
        rw [if_pos (hfront.self []), List.tail_nil, (orderly_stepwise hfront n).self]
        rfl
      | cons d b =>
        have hlt : compareValues (frontCode []) (frontCode (d :: b)) = -1 :=
          compareValues_of_lt (show (-1 : Int) < d.toNat by omega)
        rw [hlt]
        rfl
    | cons c a =>
      cases b with
      | nil =>
        have hgt : compareValues (frontCode (c :: a)) (frontCode []) = 1 :=
          compareValues_of_gt (show (-1 : Int) < c.toNat by omega)
        rw [hgt]
        rfl
      | cons d b =>
        rw [List.length_cons, List.length_cons] at hn
        rw [List.tail_cons, List.tail_cons, ← ih (by omega), compareBytes, frontCode, frontCode]
        rcases Nat.lt_trichotomy c.toNat d.toNat with h | h | h
        · rw [if_pos h, compareValues_of_lt (Int.ofNat_lt.mpr h)]
          rfl
        · rw [if_neg (by omega), if_neg (by omega),
            if_pos (compareValues_eq_zero_iff.mpr (by rw [h]))]
        · rw [if_neg (by omega), if_pos h, compareValues_of_gt (Int.ofNat_lt.mpr h)]
          rfl

theorem orderly_compareBytes : Orderly compareBytes :=
  .of_steps (fun n => orderly_stepwise (orderly_compareValues.onFun frontCode) n)
    compareBytes_eq_stepwise

/-- Only a text itself is not told apart from it. -/
theorem eq_of_compareBytes {a b : Octets} (h : compareBytes a b = 0) : a = b := by
  induction a generalizing b with
  | nil =>
    cases b with
    | nil => rfl
    | cons d b => cases h
  | cons c a ih =>
    cases b with
    | nil => cases h
    | cons d b =>
      rw [compareBytes] at h
      split at h
      next => cases h
      next hlt =>
        split at h
        next => cases h
        next hgt =>
          have hsame : c.toNat = d.toNat := by omega
          rw [Char.toNat_inj.mp hsame, ih h]

/-! ## Numbers -/

/-- The order of two numbers above zero, by their digits before and behind the point. -/
def compareMagnitudes (x y : Octets × Octets) : Int :=
  if compareValues x.1.length y.1.length = 0 then
    if compareBytes x.1 y.1 = 0 then compareBytes x.2 y.2 else compareBytes x.1 y.1
  else compareValues x.1.length y.1.length

theorem orderly_compareMagnitudes : Orderly compareMagnitudes :=
  (orderly_compareValues.onFun fun x : Octets × Octets => (x.1.length : Int)).lex
    ((orderly_compareBytes.onFun Prod.fst).lex (orderly_compareBytes.onFun Prod.snd))

theorem compareMagnitudes_of_lt {x y : Octets × Octets} (h : x.1.length < y.1.length) :
    compareMagnitudes x y = -1 := by
  rw [compareMagnitudes, compareValues_of_lt (Int.ofNat_lt.mpr h)]
  rfl

theorem compareMagnitudes_of_gt {x y : Octets × Octets} (h : y.1.length < x.1.length) :
    compareMagnitudes x y = 1 := by
  rw [compareMagnitudes, compareValues_of_gt (Int.ofNat_lt.mpr h)]
  rfl

theorem compareMagnitudes_of_eq {x y : Octets × Octets} (h : x.1.length = y.1.length) :
    compareMagnitudes x y
      = if compareBytes x.1 y.1 = 0 then compareBytes x.2 y.2 else compareBytes x.1 y.1 := by
  rw [compareMagnitudes, if_pos (compareValues_eq_zero_iff.mpr (by rw [h]))]

/-- Whether the number at the front of octets is below zero. -/
def isNegative (s : Octets) : Bool :=
  (numberAt s).1 && !((numberAt s).2.1.isEmpty && (numberAt s).2.2.isEmpty)

theorem compareNumbers_eq (a b : Octets) :
    compareNumbers a b = if isNegative a then
        if isNegative b then compareMagnitudes (numberAt b).2 (numberAt a).2 else -1
      else if isNegative b then 1 else compareMagnitudes (numberAt a).2 (numberAt b).2 := by
  unfold compareNumbers isNegative
  rcases numberAt a with ⟨na, xa⟩
  rcases numberAt b with ⟨nb, xb⟩
  dsimp only
  generalize (na && !(List.isEmpty xa.1 && List.isEmpty xa.2)) = below,
    (nb && !(List.isEmpty xb.1 && List.isEmpty xb.2)) = below'
  cases below <;> cases below'
  case false.true => rfl
  case true.false => rfl
  all_goals
    simp only [reduceIte, Bool.false_eq_true]
    split
    next hne =>
      split
      next hlt => rw [compareMagnitudes_of_lt hlt]
      next hge => rw [compareMagnitudes_of_gt (by omega)]
    next heq =>
      rw [compareMagnitudes_of_eq (Decidable.not_not.mp heq)]
      split
      next h => rw [if_pos h]
      next h => rw [if_neg h]

theorem orderly_compareNumbers : Orderly compareNumbers := by
  have h := (orderly_compareMagnitudes.onFun fun s : Octets => (numberAt s).2).signed isNegative
  simpa only [← compareNumbers_eq] using h

/-- The numbers that may have exponents are fractions. -/
theorem general?_pos {s : Octets} {x : Int × Nat} (h : general? s = some x) : 0 < x.2 := by
  have hpos : ∀ (c : Prop) [Decidable c] (v w : Int) (n : Nat),
      0 < (if c then (v, Nat.pow 10 n) else (w, 1)).2 := by
    intro c _ v w n
    split
    next => exact Nat.pow_pos (by decide)
    next => exact Nat.one_pos
  have hsome : ∀ (c : Prop) [Decidable c] (y : Int × Nat),
      (if c then none else some y) = some x → y = x := by
    intro c _ y h
    split at h
    next => cases h
    next => exact Option.some.inj h
  unfold general? at h
  rw [← hsome _ _ h]
  exact hpos _ _ _ _

theorem compareValues_nonpos_iff {a b : Int} : compareValues a b ≤ 0 ↔ a ≤ b := by
  unfold compareValues
  split
  next => omega
  next => split <;> omega

theorem fractions_trans {x y z : Int × Nat} (hy : 0 < y.2) (h : x.1 * y.2 ≤ y.1 * x.2) (h' : y.1 * z.2 ≤ z.1 * y.2) : x.1 * z.2 ≤ z.1 * x.2 := by
  have hpos : (0 : Int) < y.2 := Int.ofNat_lt.mpr hy
  refine Int.le_of_mul_le_mul_right ?_ hpos
  calc x.1 * z.2 * y.2 = x.1 * y.2 * z.2 := Int.mul_right_comm _ _ _
    _ ≤ y.1 * x.2 * z.2 := Int.mul_le_mul_of_nonneg_right h (Int.natCast_nonneg _)
    _ = y.1 * z.2 * x.2 := Int.mul_right_comm _ _ _
    _ ≤ z.1 * y.2 * x.2 := Int.mul_le_mul_of_nonneg_right h' (Int.natCast_nonneg _)
    _ = z.1 * x.2 * y.2 := Int.mul_right_comm _ _ _

theorem orderly_compareGeneral : Orderly compareGeneral where
  swap a b := by
    unfold compareGeneral
    cases general? a with
    | none => cases general? b <;> rfl
    | some x =>
      cases general? b with
      | none => rfl
      | some y => exact orderly_compareValues.swap _ _
  trans a b c h h' := by
    unfold compareGeneral at *
    cases ha : general? a with
    | none =>
      cases general? c with
      | none => exact Int.le_refl 0
      | some z => exact (by decide : (-1 : Int) ≤ 0)
    | some x =>
      cases hb : general? b with
      | none =>
        rw [ha, hb] at h
        exact absurd Int.zero_lt_one (Int.not_lt.mpr h)
      | some y =>
        cases hc : general? c with
        | none =>
          rw [hb, hc] at h'
          exact absurd Int.zero_lt_one (Int.not_lt.mpr h')
        | some z =>
          rw [ha, hb] at h
          rw [hb, hc] at h'
          exact compareValues_nonpos_iff.mpr (fractions_trans (general?_pos hb)
            (compareValues_nonpos_iff.mp h) (compareValues_nonpos_iff.mp h'))

theorem compareHuman_eq (a b : Octets) :
    compareHuman a b = if compareValues (unitRank a) (unitRank b) = 0 then compareNumbers a b
      else compareValues (unitRank a) (unitRank b) := by
  unfold compareHuman
  split
  next h => rw [if_pos h]
  next h => rw [if_neg h]

theorem orderly_compareHuman : Orderly compareHuman := by
  have h := (orderly_compareValues.onFun unitRank).lex orderly_compareNumbers
  simpa only [← compareHuman_eq] using h

/-! ## Versions -/

/-- Octets that start with a part without digits. -/
def isWord (s : Octets) : Bool :=
  s.head?.any (!·.isDigit)

/-- The place of the first octet among the parts: only a tilde comes before numbers. -/
def frontClass (s : Octets) : Int :=
  if isWord s then if versionRank s < 0 then -1 else 1 else 0

/-- What tells octets of one class apart. -/
def frontValue (s : Octets) : Int :=
  if isWord s then versionRank s else Octets.digitsValue 10 (s.takeWhile Char.isDigit)

/-- The order of two texts by an octet or a number in front. -/
def compareFronts (a b : Octets) : Int :=
  if compareValues (frontClass a) (frontClass b) = 0 then
    compareValues (frontValue a) (frontValue b)
  else compareValues (frontClass a) (frontClass b)

/-- Octets without the octet or the number in front. -/
def dropFront (s : Octets) : Octets :=
  s.drop (if isWord s then 1 else (s.takeWhile Char.isDigit).length)

theorem orderly_compareFronts : Orderly compareFronts :=
  (orderly_compareValues.onFun frontClass).lex (orderly_compareValues.onFun frontValue)

theorem versionRank_of_isWord {s : Octets} (h : isWord s = true) :
    versionRank s = -2 ∨ 0 < versionRank s := by
  cases s with
  | nil => cases h
  | cons c s =>
    have hdigit : c.isDigit = false := by simpa [isWord] using h
    rw [versionRank, hdigit, if_neg Bool.false_ne_true]
    split
    next halpha =>
      have hne : c.toNat ≠ 0 := by
        intro hzero
        rw [Char.toNat_inj.mp (hzero.trans (by rfl : 0 = '\x00'.toNat))] at halpha
        exact absurd halpha (by decide)
      omega
    next =>
      split
      next => exact .inl rfl
      next => omega

theorem versionRank_of_not_isWord {s : Octets} (h : isWord s = false) :
    versionRank s = -1 ∨ versionRank s = 0 := by
  cases s with
  | nil => exact .inl rfl
  | cons c s =>
    have hdigit : c.isDigit = true := by simpa [isWord] using h
    exact .inr (by rw [versionRank, if_pos hdigit])

theorem isWord_eq_of_versionRank {a b : Octets} (h : versionRank a = versionRank b) :
    isWord a = isWord b := by
  cases ha : isWord a <;> cases hb : isWord b
  · rfl
  · have hra := versionRank_of_not_isWord ha
    have hrb := versionRank_of_isWord hb
    omega
  · have hra := versionRank_of_isWord ha
    have hrb := versionRank_of_not_isWord hb
    omega
  · rfl

theorem length_dropFront (s : Octets) : (dropFront s).length ≤ s.length - 1 := by
  rw [dropFront, List.length_drop]
  cases s with
  | nil => exact Nat.zero_le _
  | cons c s =>
    split
    next => exact Nat.le_refl _
    next hword =>
      have hdigit : c.isDigit = true := by simpa [isWord] using hword
      rw [List.takeWhile_cons_of_pos hdigit, List.length_cons, List.length_cons]
      omega

theorem compareFronts_of_isWord {a b : Octets} (h : isWord a = true ∨ isWord b = true) :
    compareFronts a b = compareValues (versionRank a) (versionRank b) := by
  unfold compareFronts frontClass frontValue compareValues
  cases ha : isWord a <;> cases hb : isWord b
  · rw [ha, hb] at h
    exact (h.elim Bool.noConfusion Bool.noConfusion)
  · have hra := versionRank_of_not_isWord ha
    have hrb := versionRank_of_isWord hb
    grind
  · have hra := versionRank_of_isWord ha
    have hrb := versionRank_of_not_isWord hb
    grind
  · have hra := versionRank_of_isWord ha
    have hrb := versionRank_of_isWord hb
    grind

theorem compareFronts_of_not_isWord {a b : Octets} (ha : isWord a = false)
    (hb : isWord b = false) : compareFronts a b
      = compareValues (Octets.digitsValue 10 (a.takeWhile Char.isDigit))
        (Octets.digitsValue 10 (b.takeWhile Char.isDigit)) := by
  simp only [compareFronts, frontClass, frontValue, ha, hb, Bool.false_eq_true, reduceIte]
  rw [if_pos (compareValues_eq_zero_iff.mpr rfl)]

theorem compareVersionsFrom_eq_stepwise (n : Nat) (a b : Octets) :
    compareVersionsFrom n a b = stepwise compareFronts dropFront n a b := by
  induction n generalizing a b with
  | zero => rfl
  | succ n ih =>
    rw [compareVersionsFrom]
    split
    next hempty =>
      rw [Bool.and_eq_true, List.isEmpty_iff, List.isEmpty_iff] at hempty
      rw [hempty.1, hempty.2, (orderly_stepwise orderly_compareFronts _).self]
    next =>
      rw [stepwise]
      dsimp only
      split
      next hword =>
        have hword : isWord a = true ∨ isWord b = true := Bool.or_eq_true_iff.mp hword
        rw [compareFronts_of_isWord hword]
        split
        next h =>
          have hsame := isWord_eq_of_versionRank (compareValues_eq_zero_iff.mp h)
          rw [hsame, or_self] at hword
          rw [if_pos h, ih, dropFront, dropFront, hsame, if_pos hword, if_pos hword]
        next h => rw [if_neg h]
      next hword =>
        have hword : ¬ (isWord a || isWord b) = true := hword
        rw [Bool.not_eq_true, Bool.or_eq_false_iff] at hword
        rw [compareFronts_of_not_isWord hword.1 hword.2]
        split
        next h =>
          rw [if_pos h, ih, dropFront, dropFront, hword.1, hword.2, if_neg Bool.false_ne_true,
            if_neg Bool.false_ne_true]
        next h => rw [if_neg h]

/-- The order of names that counts them among the special ones. -/
def nameRank (s : Octets) : Int :=
  if s.isEmpty then 0
  else if s = ['.'] then 1
  else if s = ['.', '.'] then 2
  else if s.head? = some '.' then 3 else 4

/-- The order of two names with version numbers in them, in so many steps. -/
def compareVersionsIn (n : Nat) (a b : Octets) : Int :=
  if compareValues (nameRank a) (nameRank b) = 0 then
    if stepwise compareFronts dropFront n (a.take (stemLength a)) (b.take (stemLength b)) = 0 then
      stepwise compareFronts dropFront n a b
    else stepwise compareFronts dropFront n (a.take (stemLength a)) (b.take (stemLength b))
  else compareValues (nameRank a) (nameRank b)

theorem orderly_compareVersionsIn (n : Nat) : Orderly (compareVersionsIn n) :=
  have hsteps := orderly_stepwise orderly_compareFronts n
  (orderly_compareValues.onFun nameRank).lex
    ((hsteps.onFun fun s : Octets => s.take (stemLength s)).lex hsteps)

theorem compareVersions_eq {n : Nat} {a b : Octets} (hn : a.length + b.length ≤ n) :
    compareVersions a b = compareVersionsIn n a b := by
  have hstable : ∀ a' b' : Octets, a'.length ≤ a.length → b'.length ≤ b.length →
      compareVersionsFrom (a.length + b.length + 1) a' b'
        = stepwise compareFronts dropFront n a' b' := by
    intro a' b' ha hb
    rw [compareVersionsFrom_eq_stepwise]
    exact stepwise_stable orderly_compareFronts
      (fun ha hb => (List.eq_nil_of_length_eq_zero ha).trans (List.eq_nil_of_length_eq_zero hb).symm)
      length_dropFront (by omega) (by omega)
  have hfull := hstable a b (Nat.le_refl _) (Nat.le_refl _)
  have hstems := hstable _ _ (List.length_take_le' (stemLength a) a)
    (List.length_take_le' (stemLength b) b)
  unfold compareVersions compareVersionsIn
  dsimp only
  rw [hfull, hstems]
  split
  next h =>
    have h : compareValues (nameRank a) (nameRank b) = 0 := h
    rw [if_pos h]
    split
    next h' => rw [if_pos h']
    next h' => rw [if_neg h']
  next h =>
    have h : ¬ compareValues (nameRank a) (nameRank b) = 0 := h
    rw [if_neg h]
    rfl

theorem orderly_compareVersions : Orderly compareVersions :=
  .of_steps orderly_compareVersionsIn compareVersions_eq

/-! ## Lines -/

/-- Parts of lines are ordered, whatever they are taken for. -/
theorem Ordering.orderly_compare (o : Ordering) : Orderly o.compare := by
  obtain ⟨skipStart, skipEnd, dictionary, fold, printable, sense, reverse⟩ := o
  have hsense : Orderly (Ordering.compare
      ⟨skipStart, skipEnd, dictionary, fold, printable, sense, false⟩) := by
    cases sense with
    | text => exact orderly_compareBytes.onFun _
    | number => exact orderly_compareNumbers
    | general => exact orderly_compareGeneral
    | human => exact orderly_compareHuman
    | month => exact orderly_compareValues.onFun fun s => (monthNumber s : Int)
    | version => exact orderly_compareVersions
  cases reverse with
  | false => exact hsense
  | true => exact hsense.neg

theorem orderly_compareKeys (separator : Option Char) (keys : List Key) :
    Orderly fun a b => compareKeys separator a b keys := by
  induction keys with
  | nil => exact .same _ fun _ _ => rfl
  | cons key rest ih =>
    have h := (key.ordering.orderly_compare.onFun (key.part separator)).lex ih
    have heq : ∀ a b, compareKeys separator a b (key :: rest)
        = if key.ordering.compare (key.part separator a) (key.part separator b) = 0
          then compareKeys separator a b rest
          else key.ordering.compare (key.part separator a) (key.part separator b) := by
      intro a b
      rw [compareKeys]
      split
      next h => rw [if_pos h]
      next h => rw [if_neg h]
    simpa only [← heq] using h

namespace Order

variable (o : Order)

theorem compare_eq (a b : Octets) :
    o.compare a b = if compareKeys o.separator a b o.keys = 0 then
        if o.stable then 0 else if o.reverse then -compareBytes a b else compareBytes a b
      else compareKeys o.separator a b o.keys := by
  unfold Order.compare
  split
  next h => rw [if_pos h]
  next h => rw [if_neg h]

/-- **Lines are ordered**, whatever keys there are. -/
theorem orderly_compare : Orderly o.compare := by
  have hlast : Orderly fun a b => if o.stable then 0
      else if o.reverse then -compareBytes a b else compareBytes a b := by
    cases o.stable with
    | true => exact .same _ fun _ _ => rfl
    | false =>
      cases o.reverse with
      | true => exact orderly_compareBytes.neg
      | false => exact orderly_compareBytes
  have h := (orderly_compareKeys o.separator o.keys).lex hlast
  simpa only [← compare_eq] using h

/-- Lines that are not told apart are the same, unless they were to stay as they came. -/
theorem eq_of_compare (hstable : o.stable = false) {a b : Octets} (h : o.compare a b = 0) :
    a = b := by
  rw [compare_eq, hstable, if_neg Bool.false_ne_true] at h
  split at h
  next =>
    split at h
    next => exact eq_of_compareBytes (Int.neg_eq_zero.mp h)
    next => exact eq_of_compareBytes h
  next hkeys => exact absurd h hkeys

end Order

/-! ## Sorting -/

section Sorted

variable (o : Order)

theorem inOrder_trans (a b c : Octets) (h : decide (o.compare a b ≤ 0) = true)
    (h' : decide (o.compare b c ≤ 0) = true) : decide (o.compare a c ≤ 0) = true :=
  decide_eq_true (o.orderly_compare.trans a b c (of_decide_eq_true h) (of_decide_eq_true h'))

theorem inOrder_total (a b : Octets) :
    (decide (o.compare a b ≤ 0) || decide (o.compare b a ≤ 0)) = true := by
  rw [Bool.or_eq_true, decide_eq_true_iff, decide_eq_true_iff, o.orderly_compare.swap a b]
  omega

theorem pairwise_mergeSort (lines : List Octets) :
    (lines.mergeSort fun a b => o.compare a b ≤ 0).Pairwise fun a b => o.compare a b ≤ 0 :=
  (List.pairwise_mergeSort (inOrder_trans o) (inOrder_total o) lines).imp of_decide_eq_true

/-- **Sorting.** The lines that come out are those that went in, they are in order, and lines that
were in order before have kept it: what no key tells apart stays as it came. -/
theorem sort_spec (lines : List Octets) :
    (lines.mergeSort fun a b => o.compare a b ≤ 0).Perm lines ∧
      (lines.mergeSort fun a b => o.compare a b ≤ 0).Pairwise (fun a b => o.compare a b ≤ 0) ∧
      ∀ kept : List Octets, kept.Sublist lines → kept.Pairwise (fun a b => o.compare a b ≤ 0) →
        kept.Sublist (lines.mergeSort fun a b => o.compare a b ≤ 0) :=
  ⟨List.mergeSort_perm _ _, pairwise_mergeSort o lines, fun _ hkept hordered =>
    List.sublist_mergeSort (inOrder_trans o) (inOrder_total o) (hordered.imp decide_eq_true) hkept⟩

/-- **Lines may come in any order.** Unless lines that no key tells apart are to stay as they came,
what comes out depends on the lines alone. -/
theorem sort_eq_of_perm (hstable : o.stable = false) {lines lines' : List Octets}
    (h : lines.Perm lines') :
    lines.mergeSort (fun a b => o.compare a b ≤ 0)
      = lines'.mergeSort fun a b => o.compare a b ≤ 0 := by
  refine List.Perm.eq_of_pairwise ?_ (pairwise_mergeSort o lines) (pairwise_mergeSort o lines')
    ((List.mergeSort_perm _ _).trans (h.trans (List.mergeSort_perm _ _).symm))
  intro a b _ _ hab hba
  rw [o.orderly_compare.swap a b] at hba
  exact o.eq_of_compare hstable (by omega)

/-- Files that are in order are merged into lines in order. -/
theorem merge_spec (files : List (List Octets)) (merged : List Octets)
    (hmerged : merged.Pairwise fun a b => o.compare a b ≤ 0)
    (h : ∀ lines ∈ files, lines.Pairwise fun a b => o.compare a b ≤ 0) :
    (files.foldl (fun merged lines => merged.merge lines fun a b => o.compare a b ≤ 0)
        merged).Perm (merged ++ files.flatten) ∧
      (files.foldl (fun merged lines => merged.merge lines fun a b => o.compare a b ≤ 0)
        merged).Pairwise fun a b => o.compare a b ≤ 0 := by
  induction files generalizing merged with
  | nil => exact ⟨by simp, hmerged⟩
  | cons lines files ih =>
    have hnext := (List.pairwise_merge (inOrder_trans o) (inOrder_total o) merged lines
      (hmerged.imp decide_eq_true)
      ((h lines List.mem_cons_self).imp decide_eq_true)).imp of_decide_eq_true
    obtain ⟨hperm, hordered⟩ := ih _ hnext fun l hl => h l (List.mem_cons_of_mem _ hl)
    refine ⟨hperm.trans ?_, hordered⟩
    rw [List.flatten_cons, ← List.append_assoc]
    exact List.Perm.append_right _ (List.merge_perm_append _)

end Sorted

/-! ## Lines in order -/

/-- A line may stand in front of another one, which it must differ from if lines are to differ. -/
def Order.Before (o : Order) (strict : Bool) (a b : Octets) : Prop :=
  o.compare a b < 0 ∨ strict = false ∧ o.compare a b = 0

section Before

variable (o : Order) (strict : Bool)

instance : Trans (o.Before strict) (o.Before strict) (o.Before strict) where
  trans {a b c} h h' := by
    rcases h with h | ⟨hstrict, h⟩
    · have hbc : o.compare b c ≤ 0 := by
        rcases h' with h' | ⟨-, h'⟩ <;> omega
      exact .inl (o.orderly_compare.lt_of_lt_of_le h hbc)
    · rcases h' with h' | ⟨-, h'⟩
      · exact .inl (o.orderly_compare.lt_of_le_of_lt (Int.le_of_eq h) h')
      · exact .inr ⟨hstrict, o.orderly_compare.eq_trans h h'⟩

theorem before_iff (a b : Octets) : o.Before strict a b ↔
    ¬ (o.compare a b > 0 || (strict && o.compare a b = 0)) = true := by
  unfold Order.Before
  cases strict <;> simp <;> omega

/-- **The test for order.** Neighbours are compared only, but it passes just if any two lines stand
as they may. -/
theorem disorder?_eq_none_iff (number : Nat) (lines : List Octets) :
    Utility.disorder? o strict number lines = none ↔ lines.Pairwise (o.Before strict) := by
  rw [← List.isChain_iff_pairwise]
  induction lines generalizing number with
  | nil => exact iff_of_true rfl .nil
  | cons a lines ih =>
    cases lines with
    | nil => exact iff_of_true rfl (.singleton a)
    | cons b rest =>
      rw [List.isChain_cons_cons, before_iff, ← ih (number + 1), Utility.disorder?]
      split
      next h => exact iff_of_false (Option.some_ne_none _) fun hboth => hboth.1 h
      next h => exact ⟨fun hnone => ⟨h, hnone⟩, And.right⟩

/-- The line that is found is the first that may not stand where it does. -/
theorem disorder?_eq_some {number k : Nat} {line : Octets} {lines : List Octets}
    (h : Utility.disorder? o strict number lines = some (k, line)) :
    ∃ front previous rest, lines = front ++ previous :: line :: rest ∧
      k = number + front.length + 1 ∧ (front ++ [previous]).Pairwise (o.Before strict) ∧
      ¬ o.Before strict previous line := by
  simp only [← List.isChain_iff_pairwise]
  induction lines generalizing number with
  | nil => cases h
  | cons a lines ih =>
    cases lines with
    | nil => cases h
    | cons b rest =>
      rw [Utility.disorder?] at h
      split at h
      next hstop =>
        cases h
        exact ⟨[], a, rest, rfl, rfl, .singleton a, fun hbefore => (before_iff ..).mp hbefore hstop⟩
      next hgo =>
        obtain ⟨front, previous, rest', heq, hk, hordered, hnot⟩ := ih h
        refine ⟨a :: front, previous, rest', by rw [heq, List.cons_append], ?_, ?_, hnot⟩
        · rw [hk, List.length_cons]
          omega
        · have hab := (before_iff o strict a b).mpr hgo
          cases front with
          | nil =>
            obtain ⟨rfl, -⟩ := List.cons.inj heq
            exact List.isChain_cons_cons.mpr ⟨hab, hordered⟩
          | cons c front =>
            obtain ⟨rfl, -⟩ := List.cons.inj heq
            exact List.isChain_cons_cons.mpr ⟨hab, hordered⟩

/-- **One of each.** Of lines in order, those are left that differ from all before them, so that each
line still has one that is equal to it. -/
theorem dropRepeats_spec {lines : List Octets}
    (h : lines.Pairwise fun a b => o.compare a b ≤ 0) :
    (dropRepeats o lines).Sublist lines ∧
      (dropRepeats o lines).Pairwise (fun a b => o.compare a b < 0) ∧
      ∀ a ∈ lines, ∃ b ∈ dropRepeats o lines, o.compare b a = 0 := by
  induction lines using dropRepeats.induct o with
  | case1 a b rest heq ih =>
    have hskip : (a :: rest).Sublist (a :: b :: rest) := (List.sublist_cons_self b rest).cons_cons a
    obtain ⟨hsublist, hordered, hleft⟩ := ih (h.sublist hskip)
    rw [dropRepeats, if_pos heq]
    refine ⟨hsublist.trans hskip, hordered, ?_⟩
    intro c hc
    rcases List.mem_cons.mp hc with rfl | hc
    · exact hleft c List.mem_cons_self
    · rcases List.mem_cons.mp hc with rfl | hc
      · obtain ⟨d, hd, hda⟩ := hleft a List.mem_cons_self
        exact ⟨d, hd, o.orderly_compare.eq_trans hda heq⟩
      · exact hleft c (List.mem_cons_of_mem a hc)
  | case2 a b rest hne ih =>
    obtain ⟨hfirst, hrest⟩ := List.pairwise_cons.mp h
    obtain ⟨hsublist, hordered, hleft⟩ := ih hrest
    rw [dropRepeats, if_neg hne]
    refine ⟨hsublist.cons_cons a, List.pairwise_cons.mpr ⟨?_, hordered⟩, ?_⟩
    · intro c hc
      have hab := hfirst b List.mem_cons_self
      have hlt : o.compare a b < 0 := by omega
      rcases List.mem_cons.mp (hsublist.subset hc) with rfl | hc
      · exact hlt
      · exact o.orderly_compare.lt_of_lt_of_le hlt ((List.pairwise_cons.mp hrest).1 c hc)
    · intro c hc
      rcases List.mem_cons.mp hc with rfl | hc
      · exact ⟨c, List.mem_cons_self, o.orderly_compare.self c⟩
      · obtain ⟨d, hd, hdc⟩ := hleft c hc
        exact ⟨d, List.mem_cons_of_mem a hd, hdc⟩
  | case3 lines hshort =>
    rw [dropRepeats]
    · refine ⟨.refl lines, ?_, fun a ha => ⟨a, ha, o.orderly_compare.self a⟩⟩
      cases lines with
      | nil => exact .nil
      | cons a lines =>
        cases lines with
        | nil => exact List.pairwise_singleton _ a
        | cons b rest => exact (hshort a b rest rfl).elim
    · exact hshort

end Before

end SfcProxy.Tool.Sorting
