import SfcProxy.Proofs.Frame

/-!
# Where reading stops

A reader passes header lines one by one, and the length it knows goes along with them. It stops at
the first line that it does not pass: at an empty line behind which a body is to stand, at a line
that breaks the framing rules, at a line beyond the limit, or where the stream ends.

Of the ways in which reading can fail, those that break the framing rules are told from those that
nothing guards against: a body of negative length and a line beyond the limit.

## Main definitions

* `HeaderLines`: lines that a reader passes, and the length known before and behind them
* `Halt`: where a reader stops, and what it gives there
* `Unguarded`: what makes reading fail without a breach of the framing rules
* `Holds`: the whole messages at the front of a stream, and what is left behind them

## Main results

* `readFrom_headerLines`: header lines are passed
* `readFrom_halt`: a reader passes header lines and stops
* `read_unguarded_iff`: when reading fails without a breach of the framing rules
-/

namespace SfcProxy.Frame

/-! ## Header lines -/

/-- Bytes that end with their first line feed, which comes within the limit. -/
def IsLine (line : List UInt8) : Prop :=
  ∃ text, lineFeed ∉ text ∧ text.length ≤ lineLimit ∧ line = text ++ [lineFeed]

/-- A line that a reader passes, and what it does to the length known so far: an empty line where
no length is known yet, or a header. -/
inductive Passes : Option Int → List UInt8 → Option Int → Prop
  | empty {line : List UInt8} (isLine : IsLine line) (isEmpty : isEmptyLine line = true) :
      Passes none line none
  | header {known next : Option Int} {line : List UInt8} (isLine : IsLine line)
      (nonempty : isEmptyLine line = false) (sound : header known line = .ok next) :
      Passes known line next

/-- Lines that a reader passes, one after the other. -/
inductive HeaderLines : Option Int → List (List UInt8) → Option Int → Prop
  | nil {known : Option Int} : HeaderLines known [] known
  | cons {known next last : Option Int} {line : List UInt8} {lines : List (List UInt8)}
      (pass : Passes known line next) (rest : HeaderLines next lines last) :
      HeaderLines known (line :: lines) last

theorem Passes.isLine {known next : Option Int} {line : List UInt8} (h : Passes known line next) :
    IsLine line := by
  cases h with
  | empty isLine isEmpty => exact isLine
  | header isLine nonempty sound => exact isLine

theorem IsLine.ne_nil {line : List UInt8} (h : IsLine line) : line ≠ [] := by
  obtain ⟨text, -, -, rfl⟩ := h
  simp

theorem firstLine_of_isLine (closed : Bool) {line : List UInt8} (h : IsLine line)
    (rest : List UInt8) : firstLine closed (line ++ rest) = .line line rest := by
  obtain ⟨text, htext, hlimit, rfl⟩ := h
  rw [List.append_assoc, List.singleton_append]
  exact firstLine_append closed htext hlimit rest

theorem isLine_of_isEmptyLine {line : List UInt8} (h : isEmptyLine line = true) : IsLine line := by
  simp only [isEmptyLine, Bool.or_eq_true, beq_iff_eq] at h
  rcases h with rfl | rfl
  · exact ⟨[13], by decide, by decide, rfl⟩
  · exact ⟨[], by decide, by decide, rfl⟩

/-- Header lines are passed, whatever follows them. -/
theorem readFrom_headerLines (closed : Bool) {known last : Option Int} {lines : List (List UInt8)}
    (h : HeaderLines known lines last) (budget : Nat) (rest : List UInt8) :
    readFrom closed (budget + lines.length) known (lines.flatten ++ rest)
      = readFrom closed budget last rest := by
  induction h with
  | nil => rfl
  | @cons known next last line lines pass _ ih =>
    have hline := firstLine_of_isLine closed pass.isLine (lines.flatten ++ rest)
    rw [List.flatten_cons, List.append_assoc, List.length_cons, ← Nat.add_assoc,
      readFrom_line _ _ hline pass.isLine.ne_nil]
    cases pass with
    | empty isLine isEmpty =>
      rw [if_pos isEmpty]
      exact ih
    | header isLine nonempty sound =>
      rw [nonempty, if_neg (by decide), sound]
      exact ih

/-- No line is empty, so there are no more of them than bytes. -/
theorem HeaderLines.length_le {known last : Option Int} {lines : List (List UInt8)}
    (h : HeaderLines known lines last) : lines.length ≤ lines.flatten.length := by
  induction h with
  | nil => exact Nat.le_refl 0
  | cons pass _ ih =>
    have := List.length_pos_iff.mpr pass.isLine.ne_nil
    rw [List.length_cons, List.flatten_cons, List.length_append]
    omega

/-! ## Where a reader stops -/

/-- Where a reader of a closed stream stops with the length it knows, and what it gives. -/
inductive Halt : Option Int → List UInt8 → Reading → Prop
  /-- A body behind an empty line. -/
  | message {line body rest : List UInt8} (isEmpty : isEmptyLine line = true) :
      Halt (some body.length) (line ++ (body ++ rest)) (.message body rest)
  /-- A body that is shorter than it should be. -/
  | brokenOff {n : Int} {line body : List UInt8} (isEmpty : isEmptyLine line = true)
      (short : body.length < n) : Halt (some n) (line ++ body) .ended
  /-- The end of the stream, perhaps behind the beginning of a header. -/
  | ended {known : Option Int} {line : List UInt8} (noEnd : lineFeed ∉ line) :
      Halt known line .ended
  /-- A line that breaks the framing rules. -/
  | breached {known : Option Int} {line rest : List UInt8} {e : Error}
      (faulty : header known line = .error e) : Halt known (line ++ rest) (.failed e)
  | negative {n : Int} {line rest : List UInt8} (isEmpty : isEmptyLine line = true)
      (negative : n < 0) : Halt (some n) (line ++ rest) (.failed .negativeLength)
  | overlong {known : Option Int} {text rest : List UInt8} {e : Error} (noEnd : lineFeed ∉ text)
      (long : lineLimit < text.length) (kind : e = .lineTooLong ∨ e = .lineUnended) :
      Halt known (text ++ rest) (.failed e)

theorem header_error_isBreach {known : Option Int} {line : List UInt8} {e : Error}
    (h : header known line = .error e) : e.isBreach = true := by
  unfold header at h
  dsimp only at h
  split at h
  · cases h
    rfl
  · split at h
    · split at h
      · cases h
      · cases h
        rfl
    · cases h

/-- Too many bytes without a line end are a failure, whether the line end comes or not. -/
theorem firstLine_overlong (closed : Bool) {text : List UInt8} (h : lineFeed ∉ text)
    (long : lineLimit < text.length) (rest : List UInt8) :
    ∃ e, (e = .lineTooLong ∨ e = .lineUnended) ∧ firstLine closed (text ++ rest) = .failed e := by
  by_cases hmem : lineFeed ∈ rest
  · obtain ⟨more, after, rfl, hmore⟩ := List.eq_append_cons_of_mem hmem
    have hline : lineFeed ∉ text ++ more := by simp [h, hmore]
    refine ⟨_, .inl rfl, ?_⟩
    rw [← List.append_assoc, firstLine_ended closed hline,
      if_pos (by rw [List.length_append]; omega)]
  · refine ⟨_, .inr rfl, ?_⟩
    rw [firstLine_unended closed (by simp [h, hmem]), if_pos (by rw [List.length_append]; omega)]

/-- A closed stream starts with a line, or has no line end, or goes on beyond the limit without
one. -/
theorem firstLine_cases (bytes : List UInt8) :
    (∃ line rest, IsLine line ∧ bytes = line ++ rest) ∨
      (lineFeed ∉ bytes ∧ firstLine true bytes = .line bytes []) ∨
      ∃ text rest, lineFeed ∉ text ∧ lineLimit < text.length ∧ bytes = text ++ rest := by
  by_cases hmem : lineFeed ∈ bytes
  · obtain ⟨text, rest, rfl, htext⟩ := List.eq_append_cons_of_mem hmem
    by_cases hlong : lineLimit < text.length
    · exact .inr (.inr ⟨text, lineFeed :: rest, htext, hlong, rfl⟩)
    · exact .inl ⟨text ++ [lineFeed], rest, ⟨text, htext, by omega, rfl⟩, by simp⟩
  · by_cases hlong : lineLimit < bytes.length
    · exact .inr (.inr ⟨bytes, [], hmem, hlong, by simp⟩)
    · exact .inr (.inl ⟨hmem, by rw [firstLine_unended true hmem, if_neg hlong, if_pos rfl]⟩)

theorem readBody_halt {line : List UInt8} (hempty : isEmptyLine line = true) (n : Int)
    (bytes : List UInt8) : Halt (some n) (line ++ bytes) (readBody true n bytes) := by
  unfold readBody
  by_cases hnegative : n < 0
  · rw [if_pos hnegative]
    exact .negative hempty hnegative
  · rw [if_neg hnegative]
    by_cases hshort : bytes.length < n.toNat
    · rw [if_pos hshort, if_pos rfl]
      exact .brokenOff hempty (by omega)
    · rw [if_neg hshort]
      have hn : n = ((bytes.take n.toNat).length : Int) := by
        rw [List.length_take]
        omega
      have hhalt : Halt (some ((bytes.take n.toNat).length : Int))
          (line ++ (bytes.take n.toNat ++ bytes.drop n.toNat))
          (.message (bytes.take n.toNat) (bytes.drop n.toNat)) := .message hempty
      rwa [← hn, List.take_append_drop] at hhalt

theorem readFrom_unended (budget : Nat) (known : Option Int) {bytes : List UInt8}
    (hend : lineFeed ∉ bytes) (hfirst : firstLine true bytes = .line bytes []) :
    Halt known bytes (readFrom true (budget + 1) known bytes) := by
  cases bytes with
  | nil => exact .ended hend
  | cons b bytes =>
    have hempty : isEmptyLine (b :: bytes) = false := by
      by_contra hempty
      rw [Bool.not_eq_false] at hempty
      obtain ⟨text, -, -, htext⟩ := isLine_of_isEmptyLine hempty
      exact hend (by simp [htext])
    rw [readFrom_line budget known hfirst (by simp), hempty, if_neg (by decide)]
    cases hheader : header known (b :: bytes) with
    | error e =>
      have hhalt : Halt known (b :: bytes ++ []) (.failed e) := .breached hheader
      rwa [List.append_nil] at hhalt
    | ok next =>
      have : readFrom true budget next [] = .ended := by cases budget <;> rfl
      dsimp only
      rw [this]
      exact .ended hend

/-- Every stream is header lines and then what stops the reader. -/
theorem readFrom_halt {budget : Nat} {known : Option Int} {bytes : List UInt8}
    (hbudget : bytes.length < budget) :
    ∃ lines rest last, bytes = lines.flatten ++ rest ∧ HeaderLines known lines last ∧
      Halt last rest (readFrom true budget known bytes) := by
  induction budget generalizing known bytes with
  | zero => omega
  | succ budget ih =>
    have stop : Halt known bytes (readFrom true (budget + 1) known bytes) →
        ∃ lines rest last, bytes = lines.flatten ++ rest ∧ HeaderLines known lines last ∧
          Halt last rest (readFrom true (budget + 1) known bytes) :=
      fun h => ⟨[], bytes, known, rfl, .nil, h⟩
    have go : ∀ {line rest next}, bytes = line ++ rest → Passes known line next →
        readFrom true (budget + 1) known bytes = readFrom true budget next rest →
        ∃ lines rest last, bytes = lines.flatten ++ rest ∧ HeaderLines known lines last ∧
          Halt last rest (readFrom true (budget + 1) known bytes) := by
      rintro line rest next rfl pass heq
      have hpos := List.length_pos_iff.mpr pass.isLine.ne_nil
      rw [List.length_append] at hbudget
      have hrest : rest.length < budget := by omega
      obtain ⟨lines, rest', last, rfl, hlines, hhalt⟩ := @ih next rest hrest
      exact ⟨line :: lines, rest', last, by simp, .cons pass hlines, heq ▸ hhalt⟩
    rcases firstLine_cases bytes with
      ⟨line, rest, hline, rfl⟩ | ⟨hend, hfirst⟩ | ⟨text, rest, htext, hlong, rfl⟩
    · have hread := readFrom_line budget known (firstLine_of_isLine true hline rest) hline.ne_nil
      cases hempty : isEmptyLine line with
      | true =>
        rw [if_pos hempty] at hread
        cases known with
        | none => exact go rfl (.empty hline hempty) hread
        | some n => exact stop (hread ▸ readBody_halt hempty n rest)
      | false =>
        rw [hempty, if_neg (by decide)] at hread
        cases hheader : header known line with
        | error e =>
          rw [hheader] at hread
          exact stop (hread ▸ .breached hheader)
        | ok next =>
          rw [hheader] at hread
          exact go rfl (.header hline hempty hheader) hread
    · exact stop (readFrom_unended budget known hend hfirst)
    · obtain ⟨e, hkind, hfirst⟩ := firstLine_overlong true htext hlong rest
      exact stop (by rw [readFrom, hfirst]; exact .overlong htext hlong hkind)

theorem read_halt (bytes : List UInt8) :
    ∃ lines rest last, bytes = lines.flatten ++ rest ∧ HeaderLines none lines last ∧
      Halt last rest (read true bytes) :=
  readFrom_halt (Nat.lt_succ_self bytes.length)

/-- A closed stream has nothing to wait for. -/
theorem read_ne_pending (bytes : List UInt8) : read true bytes ≠ .pending := by
  obtain ⟨lines, rest, last, -, -, hhalt⟩ := read_halt bytes
  intro heq
  rw [heq] at hhalt
  cases hhalt

/-- A message takes at least one byte off its stream. -/
theorem length_lt_of_read {bytes body rest : List UInt8}
    (h : read true bytes = .message body rest) : rest.length < bytes.length := by
  obtain ⟨lines, back, last, rfl, -, hhalt⟩ := read_halt bytes
  rw [h] at hhalt
  cases hhalt with
  | message isEmpty =>
    have := List.length_pos_iff.mpr (isLine_of_isEmptyLine isEmpty).ne_nil
    simp only [List.length_append]
    omega

/-- The whole messages at the front of a closed stream, in order, and what is left behind them. -/
inductive Holds : List UInt8 → List (List UInt8) → List UInt8 → Prop
  | nil {stream : List UInt8} : Holds stream [] stream
  | cons {stream body rest tail : List UInt8} {bodies : List (List UInt8)}
      (first : read true stream = .message body rest) (more : Holds rest bodies tail) :
      Holds stream (body :: bodies) tail

/-! ## Failures without a breach -/

/-- What makes a reader fail that breaks no framing rule: an empty line behind which a body of
negative length is to stand, or more bytes without a line end than the limit allows. -/
inductive Unguarded : Option Int → List UInt8 → Prop
  | negative {n : Int} {line rest : List UInt8} (isEmpty : isEmptyLine line = true)
      (negative : n < 0) : Unguarded (some n) (line ++ rest)
  | overlong {known : Option Int} {text rest : List UInt8} (noEnd : lineFeed ∉ text)
      (long : lineLimit < text.length) : Unguarded known (text ++ rest)

/-- Behind its first header lines, a stream holds what makes a reader fail without a breach. -/
def Stray (bytes : List UInt8) : Prop :=
  ∃ lines rest last, bytes = lines.flatten ++ rest ∧ HeaderLines none lines last ∧
    Unguarded last rest

theorem Unguarded.readFrom {known : Option Int} {bytes : List UInt8} (h : Unguarded known bytes)
    (budget : Nat) :
    ∃ e, Frame.readFrom true (budget + 1) known bytes = .failed e ∧ e.isBreach = false := by
  cases h with
  | @negative n line rest isEmpty negative =>
    have hline := isLine_of_isEmptyLine isEmpty
    refine ⟨.negativeLength, ?_, rfl⟩
    rw [readFrom_line budget _ (firstLine_of_isLine true hline rest) hline.ne_nil, if_pos isEmpty]
    exact if_pos negative
  | @overlong _ text rest noEnd long =>
    obtain ⟨e, hkind, hfirst⟩ := firstLine_overlong true noEnd long rest
    refine ⟨e, by rw [Frame.readFrom, hfirst], ?_⟩
    rcases hkind with rfl | rfl <;> rfl

theorem eq_of_not_isBreach {e : Error} (h : e.isBreach = false) :
    e = .negativeLength ∨ e = .lineTooLong ∨ e = .lineUnended := by
  cases e with
  | malformedHeader line => cases h
  | invalidLength value => cases h
  | negativeLength => exact .inl rfl
  | lineTooLong => exact .inr (.inl rfl)
  | lineUnended => exact .inr (.inr rfl)

/-- When reading fails without a breach of the framing rules. -/
theorem read_unguarded_iff (bytes : List UInt8) :
    (∃ e, read true bytes = .failed e ∧ e.isBreach = false) ↔ Stray bytes := by
  constructor
  · rintro ⟨e, heq, hbreach⟩
    obtain ⟨lines, rest, last, rfl, hlines, hhalt⟩ := read_halt bytes
    refine ⟨lines, rest, last, rfl, hlines, ?_⟩
    rw [heq] at hhalt
    cases hhalt with
    | breached faulty =>
      rw [header_error_isBreach faulty] at hbreach
      cases hbreach
    | negative isEmpty negative => exact .negative isEmpty negative
    | overlong noEnd long kind => exact .overlong noEnd long
  · rintro ⟨lines, rest, last, rfl, hlines, hrest⟩
    obtain ⟨budget, hbudget⟩ : ∃ budget, (lines.flatten ++ rest).length + 1
        = budget + 1 + lines.length := by
      have := hlines.length_le
      refine ⟨(lines.flatten ++ rest).length - lines.length, ?_⟩
      rw [List.length_append]
      omega
    rw [read, hbudget, readFrom_headerLines true hlines]
    exact hrest.readFrom budget

end SfcProxy.Frame
