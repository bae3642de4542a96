import SfcProxy.Proofs.Header

/-!
# The grammar of headers

The streams at whose front a message can be read are those of a grammar: header lines, an empty
line, and a body of the length that the last of the lines for it gives. Empty lines may come before
all of these, and every line for the length has to give an integer, whichever of them counts.

## Main definitions

* `DigitRun`, `IsInteger`: the written form of an integer
* `NamesLength`, `GivesLength`: header lines for the length
* `Heading`: the lines before an empty line that a body follows
* `LinesFit`: a stream without a line beyond the limit

## Main results

* `length?_eq_some_iff`: the integers that a reader takes for lengths
* `headerLines_iff_heading`: a reader passes the lines of a heading, and learns the last length
* `read_eq_message_iff_short`: the streams at whose front a message can be read
* `read_eq_message_iff`: the same where all lines are within the limit
-/

namespace SfcProxy.Frame

/-! ## Integers -/

/-- Digits with their values, each perhaps behind a single underscore. -/
inductive DigitRun : List UInt8 → List Nat → Prop
  | nil : DigitRun [] []
  | digit {b : UInt8} {bytes : List UInt8} {values : List Nat} (isDigit : isDigit b = true)
      (more : DigitRun bytes values) : DigitRun (b :: bytes) ((b.toNat - 48) :: values)
  | underscore {b : UInt8} {bytes : List UInt8} {values : List Nat} (isDigit : isDigit b = true)
      (more : DigitRun bytes values) : DigitRun (95 :: b :: bytes) ((b.toNat - 48) :: values)

/-- The number that digits stand for, behind those that stand for `value`. -/
def decimalFrom (value : Nat) (values : List Nat) : Nat :=
  values.foldl (fun n digit => n * 10 + digit) value

/-- A sign or none, and what it makes of a number. -/
inductive Sign : List UInt8 → Nat → Int → Prop
  | none {n : Nat} : Sign [] n n
  | plus {n : Nat} : Sign [43] n n
  | minus {n : Nat} : Sign [45] n (-n)

/-- The written form of an integer: a sign or none, a digit and perhaps more, with white space
around them. -/
def IsInteger (bytes : List UInt8) (n : Int) : Prop :=
  ∃ front sign b digits back values, bytes = front ++ ((sign ++ b :: digits) ++ back) ∧
    (∀ c ∈ front, isBlank c = true) ∧ (∀ c ∈ back, isBlank c = true) ∧ isDigit b = true ∧
    DigitRun digits values ∧ values.length < digitLimit ∧
    Sign sign (decimalFrom (b.toNat - 48) values) n

theorem digitsFrom?_of_digitRun {bytes : List UInt8} {values : List Nat} (h : DigitRun bytes values)
    (value : Nat) {count : Nat} (hcount : count + values.length ≤ digitLimit) :
    digitsFrom? value count bytes = some (decimalFrom value values) := by
  induction h generalizing value count with
  | nil => exact if_pos hcount
  | digit isDigit _ ih =>
    rw [List.length_cons] at hcount
    rw [digitsFrom?.eq_def]
    dsimp only
    rw [if_pos isDigit, ih _ (by omega)]
    rfl
  | underscore isDigit _ ih =>
    rw [List.length_cons] at hcount
    rw [digitsFrom?.eq_def]
    dsimp only
    rw [if_neg (by decide)]
    change (if Frame.isDigit _ = true then digitsFrom? _ _ _ else none) = _
    rw [if_pos isDigit, ih _ (by omega)]
    rfl

theorem exists_digitRun {value count n : Nat} {bytes : List UInt8}
    (h : digitsFrom? value count bytes = some n) :
    ∃ values, DigitRun bytes values ∧ count + values.length ≤ digitLimit ∧
      n = decimalFrom value values := by
  fun_induction digitsFrom? value count bytes with
  | case1 value count hcount => exact ⟨[], .nil, hcount, (Option.some.inj h).symm⟩
  | case2 => cases h
  | case3 value count b rest hdigit ih =>
    obtain ⟨values, hrun, hcount, hn⟩ := ih h
    exact ⟨_, .digit hdigit hrun, by rw [List.length_cons]; omega, hn⟩
  | case4 value count b rest hdigit _ ih =>
    obtain ⟨values, hrun, hcount, hn⟩ := ih h
    exact ⟨_, .underscore hdigit hrun, by rw [List.length_cons]; omega, hn⟩
  | case5 => cases h
  | case6 => cases h

theorem digits?_eq_some_iff {bytes : List UInt8} {n : Nat} :
    digits? bytes = some n ↔ ∃ b digits values, bytes = b :: digits ∧ isDigit b = true ∧
      DigitRun digits values ∧ values.length < digitLimit ∧
      n = decimalFrom (b.toNat - 48) values := by
  constructor
  · intro h
    cases bytes with
    | nil => cases h
    | cons b digits =>
      rw [digits?] at h
      split at h
      · rename_i hdigit
        obtain ⟨values, hrun, hcount, hn⟩ := exists_digitRun h
        exact ⟨b, digits, values, rfl, hdigit, hrun, by omega, hn⟩
      · cases h
  · rintro ⟨b, digits, values, rfl, hdigit, hrun, hcount, rfl⟩
    rw [digits?, if_pos hdigit]
    exact digitsFrom?_of_digitRun hrun _ (by omega)

/-- What is trimmed off is white space. -/
theorem exists_trim (bytes : List UInt8) : ∃ front back, bytes = front ++ (trim bytes ++ back) ∧
    (∀ b ∈ front, isBlank b = true) ∧ ∀ b ∈ back, isBlank b = true := by
  refine ⟨bytes.takeWhile isBlank, ((bytes.dropWhile isBlank).reverse.takeWhile isBlank).reverse,
    ?_, fun b hb => List.mem_takeWhile_imp hb, fun b hb => ?_⟩
  · rw [trim, ← List.reverse_append, List.takeWhile_append_dropWhile, List.reverse_reverse,
      List.takeWhile_append_dropWhile]
  · exact List.mem_takeWhile_imp (List.mem_reverse.mp hb)

theorem DigitRun.not_isBlank {bytes : List UInt8} {values : List Nat} (h : DigitRun bytes values) :
    ∀ b ∈ bytes, isBlank b = false := by
  induction h with
  | nil => exact List.forall_mem_nil _
  | digit isDigit _ ih => exact List.forall_mem_cons.mpr ⟨isBlank_of_isDigit isDigit, ih⟩
  | underscore isDigit _ ih =>
    exact List.forall_mem_cons.mpr ⟨by decide,
      List.forall_mem_cons.mpr ⟨isBlank_of_isDigit isDigit, ih⟩⟩

theorem Sign.not_isBlank {sign : List UInt8} {n : Nat} {z : Int} (h : Sign sign n z) :
    ∀ b ∈ sign, isBlank b = false := by
  cases h with
  | none => exact List.forall_mem_nil _
  | plus | minus => exact List.forall_mem_singleton.mpr (by decide)

theorem length?_of_trim {value digits : List UInt8} {sign : List UInt8} {b : UInt8} {m : Nat}
    {n : Int} (hsign : Sign sign m n) (hdigit : isDigit b = true)
    (htrim : trim value = sign ++ b :: digits) (hm : digits? (b :: digits) = some m) :
    length? value = some n := by
  unfold length?
  rw [htrim]
  cases hsign with
  | none =>
    rw [List.nil_append]
    split
    case h_1 heq | h_2 heq =>
      rw [(List.cons.inj heq).1] at hdigit
      exact absurd hdigit (by decide)
    case h_3 =>
      rw [hm]
      rfl
  | plus | minus =>
    change Option.map _ (do let a ← digits? (b :: digits); pure (a : Int)) = _
    rw [hm]
    rfl

/-- **The integers that a reader takes for lengths.** -/
theorem length?_eq_some_iff {value : List UInt8} {n : Int} :
    length? value = some n ↔ IsInteger value n := by
  constructor
  · intro h
    obtain ⟨front, back, hvalue, hfront, hback⟩ := exists_trim value
    have hspelled : ∀ sign rest m, trim value = sign ++ rest → digits? rest = some m →
        Sign sign m n → IsInteger value n := by
      intro sign rest m htrim hm hsign
      obtain ⟨b, digits, values, rfl, hdigit, hrun, hcount, rfl⟩ := digits?_eq_some_iff.mp hm
      exact ⟨front, sign, b, digits, back, values, by rw [← htrim]; exact hvalue, hfront, hback,
        hdigit, hrun, hcount, hsign⟩
    -- The reader tells the signs apart first; behind the sign all three cases are one.
    unfold length? at h
    split at h
    case h_1 rest htrim =>
      obtain ⟨_, hdigits, rfl⟩ := Option.map_eq_some_iff.mp h
      obtain ⟨m, hm, ⟨⟩⟩ := Option.bind_eq_some_iff.mp hdigits
      exact hspelled [43] rest m htrim hm .plus
    case h_2 rest htrim =>
      obtain ⟨_, hdigits, rfl⟩ := Option.map_eq_some_iff.mp h
      obtain ⟨m, hm, ⟨⟩⟩ := Option.bind_eq_some_iff.mp hdigits
      exact hspelled [45] rest m htrim hm .minus
    case h_3 =>
      obtain ⟨_, hdigits, rfl⟩ := Option.map_eq_some_iff.mp h
      obtain ⟨m, hm, ⟨⟩⟩ := Option.bind_eq_some_iff.mp hdigits
      exact hspelled [] (trim value) m rfl hm .none
  · rintro ⟨front, sign, b, digits, back, values, rfl, hfront, hback, hdigit, hrun, hcount, hsign⟩
    have hnot : ∀ c ∈ sign ++ b :: digits, isBlank c = false :=
      List.forall_mem_append.mpr ⟨hsign.not_isBlank,
        List.forall_mem_cons.mpr ⟨isBlank_of_isDigit hdigit, hrun.not_isBlank⟩⟩
    exact length?_of_trim hsign hdigit (trim_between hfront hnot hback)
      (digits?_eq_some_iff.mpr ⟨b, digits, values, rfl, hdigit, hrun, hcount, rfl⟩)

/-! ## Headers -/

/-- The line is a header with the name of the length, in any case and with white space around it. -/
def NamesLength (line : List UInt8) : Prop :=
  ∃ name value, line = name ++ 58 :: value ∧ 58 ∉ name ∧ (trim name).map lowerByte = lengthName

/-- The line is a header that gives the length. -/
def GivesLength (line : List UInt8) (n : Int) : Prop :=
  ∃ name value, line = name ++ 58 :: value ∧ 58 ∉ name ∧ (trim name).map lowerByte = lengthName ∧
    IsInteger value n

/-- The lines before the empty line that a body of a length follows. -/
structure Heading (lines : List (List UInt8)) (n : Int) : Prop where
  ended : ∀ line ∈ lines, ∃ text, lineFeed ∉ text ∧ line = text ++ [lineFeed]
  /-- Every line is empty or a header. -/
  shaped : ∀ line ∈ lines, line = [13, 10] ∨ line = [10] ∨ 58 ∈ line
  /-- Empty lines come before all headers for the length. -/
  early : ∀ front line back, lines = front ++ line :: back → line = [13, 10] ∨ line = [10] →
    ∀ other ∈ front, ¬ NamesLength other
  readable : ∀ line ∈ lines, NamesLength line → ∃ n, GivesLength line n
  /-- The last of the headers for the length counts. -/
  last : ∃ front line back, lines = front ++ line :: back ∧ GivesLength line n ∧
    ∀ other ∈ back, ¬ NamesLength other

theorem isEmptyLine_iff {line : List UInt8} :
    isEmptyLine line = true ↔ line = [13, 10] ∨ line = [10] := by
  simp only [isEmptyLine, Bool.or_eq_true, beq_iff_eq]

theorem header_of_notMem {line : List UInt8} (h : 58 ∉ line) (known : Option Int) :
    header known line = .error (.malformedHeader line) := by
  have hname : line.takeWhile (· != 58) = line := by
    rw [List.takeWhile_eq_self_iff]
    intro b hb
    have : b ≠ 58 := fun heq => h (heq ▸ hb)
    simpa using this
  simp only [header, hname, List.drop_length]

/-- The first colon parts a header. -/
theorem takeWhile_append_colon {name : List UInt8} (h : 58 ∉ name) (value : List UInt8) :
    (name ++ 58 :: value).takeWhile (· != 58) = name := by
  rw [List.takeWhile_append_of_pos]
  · simp
  · intro b hb
    have : b ≠ 58 := fun heq => h (heq ▸ hb)
    simpa using this

theorem header_append {name : List UInt8} (h : 58 ∉ name) (value : List UInt8)
    (known : Option Int) : header known (name ++ 58 :: value) =
      if (trim name).map lowerByte = lengthName then
        (length? value).elim (.error (.invalidLength value)) fun n => .ok (some n)
      else .ok known := by
  unfold header
  dsimp only
  rw [takeWhile_append_colon h, List.drop_left]
  dsimp only
  cases length? value <;> rfl

theorem header_of_givesLength {line : List UInt8} {n : Int} (h : GivesLength line n)
    (known : Option Int) : header known line = .ok (some n) := by
  obtain ⟨name, value, rfl, hname, hlength, hn⟩ := h
  rw [header_append hname, if_pos hlength, length?_eq_some_iff.mpr hn, Option.elim_some]

/-- What a reader does with a header that it takes. -/
theorem header_eq_ok_iff {known next : Option Int} {line : List UInt8} :
    header known line = .ok next ↔ 58 ∈ line ∧
      ((∃ n, GivesLength line n ∧ next = some n) ∨ ¬ NamesLength line ∧ next = known) := by
  constructor
  · intro h
    by_cases hcolon : 58 ∈ line
    · refine ⟨hcolon, ?_⟩
      obtain ⟨name, value, rfl, hname⟩ := List.eq_append_cons_of_mem hcolon
      rw [header_append hname] at h
      split at h
      · rename_i hlength
        cases hvalue : length? value with
        | none =>
          rw [hvalue] at h
          cases h
        | some n =>
          rw [hvalue] at h
          cases h
          exact .inl ⟨n, ⟨name, value, rfl, hname, hlength, length?_eq_some_iff.mp hvalue⟩, rfl⟩
      · rename_i hlength
        cases h
        refine .inr ⟨?_, rfl⟩
        rintro ⟨name', value', heq, hname', hlength'⟩
        have hsame := congrArg (List.takeWhile (· != 58)) heq
        rw [takeWhile_append_colon hname, takeWhile_append_colon hname'] at hsame
        exact hlength (hsame ▸ hlength')
    · rw [header_of_notMem hcolon] at h
      cases h
  · rintro ⟨hcolon, ⟨n, hgives, rfl⟩ | ⟨hnames, rfl⟩⟩
    · exact header_of_givesLength hgives known
    · obtain ⟨name, value, rfl, hname⟩ := List.eq_append_cons_of_mem hcolon
      rw [header_append hname, if_neg fun hlength => hnames ⟨name, value, rfl, hname, hlength⟩]

/-! ## Headings -/

/-- A line gives one length. -/
theorem GivesLength.unique {line : List UInt8} {n n' : Int} (h : GivesLength line n)
    (h' : GivesLength line n') : n = n' := by
  have heq := (header_of_givesLength h none).symm.trans (header_of_givesLength h' none)
  cases heq
  rfl

theorem GivesLength.namesLength {line : List UInt8} {n : Int} (h : GivesLength line n) :
    NamesLength line := by
  obtain ⟨name, value, hline, hname, hlength, -⟩ := h
  exact ⟨name, value, hline, hname, hlength⟩

theorem NamesLength.mem {line : List UInt8} (h : NamesLength line) : 58 ∈ line := by
  obtain ⟨name, value, rfl, -⟩ := h
  simp

theorem NamesLength.nonempty {line : List UInt8} (h : NamesLength line) :
    isEmptyLine line = false := by
  rw [Bool.eq_false_iff]
  intro hempty
  rcases isEmptyLine_iff.mp hempty with rfl | rfl <;> exact absurd h.mem (by decide)

/-- What a reader learns from a line that it passes. -/
theorem Passes.learns {known next : Option Int} {line : List UInt8} (h : Passes known line next) :
    (∃ n, GivesLength line n ∧ next = some n) ∨ ¬ NamesLength line ∧ next = known := by
  cases h with
  | empty isLine isEmpty =>
    refine .inr ⟨fun hnames => ?_, rfl⟩
    rw [hnames.nonempty] at isEmpty
    cases isEmpty
  | header isLine nonempty sound => exact (header_eq_ok_iff.mp sound).2

theorem Passes.shaped {known next : Option Int} {line : List UInt8} (h : Passes known line next) :
    (line = [13, 10] ∨ line = [10]) ∧ known = none ∨ 58 ∈ line := by
  cases h with
  | empty isLine isEmpty => exact .inl ⟨isEmptyLine_iff.mp isEmpty, rfl⟩
  | header isLine nonempty sound => exact .inr (header_eq_ok_iff.mp sound).1

/-- Each line of a header is passed on its own. -/
theorem HeaderLines.exists_passes {known last : Option Int} {lines : List (List UInt8)}
    (h : HeaderLines known lines last) : ∀ line ∈ lines, ∃ k next, Passes k line next := by
  induction h with
  | nil => exact List.forall_mem_nil _
  | cons pass _ ih => exact List.forall_mem_cons.mpr ⟨⟨_, _, pass⟩, ih⟩

/-- A length that is known stays known. -/
theorem HeaderLines.of_none {known last : Option Int} {lines : List (List UInt8)}
    (h : HeaderLines known lines last) (hlast : last = none) :
    known = none ∧ ∀ line ∈ lines, ¬ NamesLength line := by
  induction h with
  | nil => exact ⟨hlast, List.forall_mem_nil _⟩
  | cons pass _ ih =>
    obtain ⟨hnext, hlines⟩ := ih hlast
    rcases pass.learns with ⟨n, -, hn⟩ | ⟨hnames, hknown⟩
    · rw [hn] at hnext
      cases hnext
    · exact ⟨hknown.symm.trans hnext, List.forall_mem_cons.mpr ⟨hnames, hlines⟩⟩

/-- Behind header lines the last length is known, or what was known before them. -/
theorem HeaderLines.last {known last : Option Int} {lines : List (List UInt8)}
    (h : HeaderLines known lines last) :
    (last = known ∧ ∀ line ∈ lines, ¬ NamesLength line) ∨
      ∃ n front line back, last = some n ∧ lines = front ++ line :: back ∧ GivesLength line n ∧
        ∀ other ∈ back, ¬ NamesLength other := by
  induction h with
  | nil => exact .inl ⟨rfl, List.forall_mem_nil _⟩
  | @cons known next last line lines pass _ ih =>
    rcases ih with ⟨rfl, hlines⟩ | ⟨n, front, line', back, hlast, rfl, hgives, hback⟩
    · rcases pass.learns with ⟨n, hgives, hn⟩ | ⟨hnames, hknown⟩
      · exact .inr ⟨n, [], line, lines, hn, rfl, hgives, hlines⟩
      · exact .inl ⟨hknown, List.forall_mem_cons.mpr ⟨hnames, hlines⟩⟩
    · exact .inr ⟨n, line :: front, line', back, hlast, rfl, hgives, hback⟩

theorem HeaderLines.of_append {known last : Option Int} {front back : List (List UInt8)}
    (h : HeaderLines known (front ++ back) last) :
    ∃ mid, HeaderLines known front mid ∧ HeaderLines mid back last := by
  induction front generalizing known with
  | nil => exact ⟨known, .nil, h⟩
  | cons line front ih =>
    cases h with
    | cons pass rest =>
      obtain ⟨mid, hfront, hback⟩ := ih rest
      exact ⟨mid, .cons pass hfront, hback⟩

/-- A reader passes lines of the right shape. -/
theorem exists_headerLines {lines : List (List UInt8)} (known : Option Int)
    (hlines : ∀ line ∈ lines, IsLine line)
    (hshaped : ∀ line ∈ lines, line = [13, 10] ∨ line = [10] ∨ 58 ∈ line)
    (hearly : ∀ front line back, lines = front ++ line :: back → line = [13, 10] ∨ line = [10] →
      known = none ∧ ∀ other ∈ front, ¬ NamesLength other)
    (hreadable : ∀ line ∈ lines, NamesLength line → ∃ n, GivesLength line n) :
    ∃ last, HeaderLines known lines last := by
  induction lines generalizing known with
  | nil => exact ⟨known, .nil⟩
  | cons line lines ih =>
    rw [List.forall_mem_cons] at hlines hshaped hreadable
    have hpass : ∃ next, Passes known line next ∧
        (next = none ∨ NamesLength line ∨ next = known) := by
      rcases or_assoc.mpr hshaped.1 with hempty | hcolon
      · obtain ⟨rfl, -⟩ := hearly [] line lines rfl hempty
        exact ⟨none, .empty hlines.1 (isEmptyLine_iff.mpr hempty), .inl rfl⟩
      · have hnonempty : isEmptyLine line = false := by
          rw [Bool.eq_false_iff]
          intro hempty
          rcases isEmptyLine_iff.mp hempty with rfl | rfl <;> exact absurd hcolon (by decide)
        by_cases hnames : NamesLength line
        · obtain ⟨n, hgives⟩ := hreadable.1 hnames
          exact ⟨some n, .header hlines.1 hnonempty (header_of_givesLength hgives known),
            .inr (.inl hnames)⟩
        · exact ⟨known, .header hlines.1 hnonempty
            (header_eq_ok_iff.mpr ⟨hcolon, .inr ⟨hnames, rfl⟩⟩), .inr (.inr rfl)⟩
    obtain ⟨next, hpass, hnext⟩ := hpass
    obtain ⟨last, hrest⟩ := ih next hlines.2 hshaped.2 (fun front other back heq hempty => by
      obtain ⟨hknown, hfront⟩ := hearly (line :: front) other back (by rw [heq]; rfl) hempty
      rw [List.forall_mem_cons] at hfront
      exact ⟨hnext.elim id fun h => h.elim (absurd · hfront.1) (·.trans hknown), hfront.2⟩)
      hreadable.2
    exact ⟨last, .cons hpass hrest⟩

/-- What a reader passes is a heading, and gives the length that the reader knows then. -/
theorem HeaderLines.heading {lines : List (List UInt8)} {n : Int}
    (h : HeaderLines none lines (some n)) : Heading lines n where
  ended line hline := by
    obtain ⟨known, next, hpass⟩ := h.exists_passes line hline
    obtain ⟨text, htext, -, heq⟩ := hpass.isLine
    exact ⟨text, htext, heq⟩
  shaped line hline := by
    obtain ⟨known, next, hpass⟩ := h.exists_passes line hline
    exact or_assoc.mp (hpass.shaped.imp_left And.left)
  early front line back heq hempty := by
    obtain ⟨mid, hfront, hback⟩ := (heq ▸ h).of_append
    cases hback with
    | cons pass rest =>
      rcases pass.shaped with ⟨-, rfl⟩ | hcolon
      · exact (hfront.of_none rfl).2
      · rcases hempty with rfl | rfl <;> exact absurd hcolon (by decide)
  readable line hline hnames := by
    obtain ⟨known, next, hpass⟩ := h.exists_passes line hline
    rcases hpass.learns with ⟨m, hgives, -⟩ | ⟨hnot, -⟩
    · exact ⟨m, hgives⟩
    · exact absurd hnames hnot
  last := by
    rcases h.last with ⟨hnone, -⟩ | ⟨m, front, line, back, hm, hsplit⟩
    · cases hnone
    · obtain rfl := Option.some.inj hm
      exact ⟨front, line, back, hsplit⟩

theorem Heading.headerLines {lines : List (List UInt8)} {n : Int} (h : Heading lines n)
    (hlines : ∀ line ∈ lines, IsLine line) : HeaderLines none lines (some n) := by
  obtain ⟨known, hknown⟩ := exists_headerLines none hlines h.shaped
    (fun front line back heq hempty => ⟨rfl, h.early front line back heq hempty⟩) h.readable
  obtain ⟨front, line, back, rfl, hgives, hback⟩ := h.last
  obtain ⟨mid, -, hrest⟩ := hknown.of_append
  cases hrest with
  | @cons _ next _ _ _ pass rest =>
    have hnext : next = some n := by
      rcases pass.learns with ⟨m, hgives', rfl⟩ | ⟨hnot, -⟩
      · rw [hgives.unique hgives']
      · exact absurd hgives.namesLength hnot
    rcases rest.last with ⟨rfl, -⟩ | ⟨m, front', line', back', -, rfl, hgives', -⟩
    · exact hnext ▸ hknown
    · exact absurd hgives'.namesLength (hback line' (by simp))

/-- **A reader passes the lines of a heading**, and knows then the last length that they give. -/
theorem headerLines_iff_heading {lines : List (List UInt8)} {n : Int} :
    HeaderLines none lines (some n) ↔
      Heading lines n ∧ ∀ line ∈ lines, line.length ≤ lineLimit + 1 := by
  constructor
  · intro h
    refine ⟨h.heading, fun line hline => ?_⟩
    obtain ⟨known, next, hpass⟩ := h.exists_passes line hline
    obtain ⟨text, -, hlimit, rfl⟩ := hpass.isLine
    rw [List.length_append]
    exact Nat.succ_le_succ hlimit
  · rintro ⟨hheading, hshort⟩
    refine hheading.headerLines fun line hline => ?_
    obtain ⟨text, htext, rfl⟩ := hheading.ended line hline
    have hlimit := hshort _ hline
    rw [List.length_append] at hlimit
    exact ⟨text, htext, Nat.le_of_succ_le_succ hlimit, rfl⟩

/-! ## Streams -/

/-- A message that is read from a stream stands behind header lines and an empty line. -/
theorem exists_headerLines_of_read {closed : Bool} {bytes body rest : List UInt8}
    (h : read closed bytes = .message body rest) :
    ∃ lines blank, bytes = lines.flatten ++ (blank ++ (body ++ rest)) ∧
      isEmptyLine blank = true ∧ HeaderLines none lines (some body.length) := by
  have hclosed := read_append true h []
  rw [List.append_nil, List.append_nil] at hclosed
  obtain ⟨lines, back, last, rfl, hlines, hhalt⟩ := read_halt bytes
  rw [hclosed] at hhalt
  cases hhalt with
  | message isEmpty => exact ⟨lines, _, rfl, isEmpty, hlines⟩

/-- A message behind header lines and an empty line is read, whatever follows it. -/
theorem read_of_headerLines (closed : Bool) {lines : List (List UInt8)} {blank body : List UInt8}
    (hlines : HeaderLines none lines (some body.length)) (hblank : isEmptyLine blank = true)
    (rest : List UInt8) :
    read closed (lines.flatten ++ (blank ++ (body ++ rest))) = .message body rest := by
  have hline := isLine_of_isEmptyLine hblank
  obtain ⟨budget, hbudget⟩ : ∃ budget, (lines.flatten ++ (blank ++ (body ++ rest))).length + 1
      = budget + 1 + lines.length := by
    have := hlines.length_le
    refine ⟨(lines.flatten ++ (blank ++ (body ++ rest))).length - lines.length, ?_⟩
    rw [List.length_append]
    omega
  rw [read, hbudget, readFrom_headerLines closed hlines,
    readFrom_line budget _ (firstLine_of_isLine closed hline _) hline.ne_nil, if_pos hblank]
  exact readBody_append closed body rest

theorem read_eq_message_iff_headerLines (closed : Bool) {bytes body rest : List UInt8} :
    read closed bytes = .message body rest ↔ ∃ lines blank,
      bytes = lines.flatten ++ (blank ++ (body ++ rest)) ∧ isEmptyLine blank = true ∧
        HeaderLines none lines (some body.length) := by
  constructor
  · exact exists_headerLines_of_read
  · rintro ⟨lines, blank, rfl, hblank, hlines⟩
    exact read_of_headerLines closed hlines hblank rest

/-- **The grammar of headers.** A message is read from a stream, and the rest is left, exactly if the
stream is a heading whose lines are within the limit, an empty line, the body of the message, of the
length that the heading gives, and that rest. -/
theorem read_eq_message_iff_short (closed : Bool) {bytes body rest : List UInt8} :
    read closed bytes = .message body rest ↔ ∃ lines blank,
      bytes = lines.flatten ++ (blank ++ (body ++ rest)) ∧ (blank = [13, 10] ∨ blank = [10]) ∧
        Heading lines body.length ∧ ∀ line ∈ lines, line.length ≤ lineLimit + 1 := by
  simp only [read_eq_message_iff_headerLines, isEmptyLine_iff, headerLines_iff_heading]

/-- A stray empty line, a header of another name and two lengths, of which the second counts. -/
example : read true (Utf8.ofString ("\r\nContent-Type: x\r\nContent-Length: 9\r\n"
    ++ "content-length :\t+0_2\n\nhi, and more"))
      = .message (Utf8.ofString "hi") (Utf8.ofString ", and more") := by
  decide +kernel

/-- No line of a stream is beyond the limit. -/
def LinesFit (bytes : List UInt8) : Prop :=
  ∀ text, text <:+: bytes → lineFeed ∉ text → text.length ≤ lineLimit

theorem LinesFit.length_le {lines : List (List UInt8)} {after : List UInt8}
    (h : LinesFit (lines.flatten ++ after))
    (hended : ∀ line ∈ lines, ∃ text, lineFeed ∉ text ∧ line = text ++ [lineFeed]) :
    ∀ line ∈ lines, line.length ≤ lineLimit + 1 := by
  intro line hline
  obtain ⟨text, htext, rfl⟩ := hended line hline
  have hinfix : text <:+: lines.flatten ++ after := by
    have hmem : text ++ [lineFeed] <:+: lines.flatten := List.infix_of_mem_flatten hline
    exact ((List.prefix_append text [lineFeed]).isInfix.trans hmem).trans
      (List.prefix_append lines.flatten after).isInfix
  rw [List.length_append]
  exact Nat.succ_le_succ (h text hinfix htext)

/-- In a stream with no line beyond the limit, the lines of a heading are within it. -/
theorem read_eq_message_iff (closed : Bool) {bytes : List UInt8} (hbytes : LinesFit bytes)
    (body rest : List UInt8) :
    read closed bytes = .message body rest ↔ ∃ lines blank,
      bytes = lines.flatten ++ (blank ++ (body ++ rest)) ∧ (blank = [13, 10] ∨ blank = [10]) ∧
        Heading lines body.length := by
  simp only [read_eq_message_iff_headerLines, isEmptyLine_iff, headerLines_iff_heading]
  refine exists_congr fun lines => exists_congr fun blank => ?_
  constructor
  · rintro ⟨hsplit, hblank, hheading, -⟩
    exact ⟨hsplit, hblank, hheading⟩
  · rintro ⟨rfl, hblank, hheading⟩
    exact ⟨rfl, hblank, hheading, hbytes.length_le hheading.ended⟩

end SfcProxy.Frame
