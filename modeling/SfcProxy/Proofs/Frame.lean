import Mathlib.Data.List.TakeWhile
import Mathlib.Tactic.Common
import SfcProxy.Frame

/-!
# Frames are read back

A frame says how long its body is, so the body itself may hold anything: header lines, empty lines,
further frames. Reading takes exactly one frame off the front of a stream, whatever follows it, and
a stream of frames is read as the list of their bodies.

The length stands in the header in decimal, and a reader takes no more than `digitLimit` digits of
it. No memory holds a body whose length has more.

## Main definitions

* `Frame.Framable`: a body whose length can be written within the limit

## Main results

* `Frame.firstLine_append`: the first line of a stream ends at its first line feed
* `Frame.length?_written`: a length is read back from its decimal digits
* `Frame.read_write_append`: the first frame of a stream is read, and the rest left
* `Frame.read_append`: bytes that come in later do not change the message that is at hand
* `Frame.readAll_write`: a stream of frames is read back
-/

namespace SfcProxy.Frame

/-- The length of a body has no more digits than a reader takes. -/
def Framable (body : List UInt8) : Prop :=
  (Nat.toDigits 10 body.length).length ≤ digitLimit

/-- Every body in an address space of 64 bits is such. -/
theorem framable_of_length_lt {body : List UInt8} (h : body.length < UInt64.size) :
    Framable body := by
  refine (Nat.length_toDigits_le_iff (by decide) (by decide)).mpr ?_
  calc
    body.length < UInt64.size := h
    _ ≤ 10 ^ 20 := by decide
    _ ≤ 10 ^ digitLimit := Nat.pow_le_pow_right (by decide) (by decide)

/-! ## Lines -/

/-- The first line feed of a stream decides about its first line. -/
theorem firstLine_ended (closed : Bool) {text : List UInt8} (h : lineFeed ∉ text)
    (rest : List UInt8) : firstLine closed (text ++ lineFeed :: rest)
      = if text.length > lineLimit then .failed .lineTooLong
        else .line (text ++ [lineFeed]) rest := by
  have htake : (text ++ lineFeed :: rest).takeWhile (· != lineFeed) = text := by
    rw [List.takeWhile_append_of_pos]
    · simp
    · intro b hb
      have : b ≠ lineFeed := fun heq => h (heq ▸ hb)
      simpa using this
  simp only [firstLine, htake, List.drop_left]

theorem firstLine_unended (closed : Bool) {bytes : List UInt8} (h : lineFeed ∉ bytes) :
    firstLine closed bytes = if bytes.length > lineLimit then .failed .lineUnended
      else if closed then .line bytes [] else .pending := by
  have htake : bytes.takeWhile (· != lineFeed) = bytes := by
    rw [List.takeWhile_eq_self_iff]
    intro b hb
    have : b ≠ lineFeed := fun heq => h (heq ▸ hb)
    simpa using this
  simp only [firstLine, htake, List.drop_length]

/-- A line ends at the first line feed, whatever follows it. -/
theorem firstLine_append (closed : Bool) {line : List UInt8} (hline : lineFeed ∉ line)
    (hlimit : line.length ≤ lineLimit) (rest : List UInt8) :
    firstLine closed (line ++ lineFeed :: rest) = .line (line ++ [lineFeed]) rest := by
  rw [firstLine_ended closed hline, if_neg (Nat.not_lt.mpr hlimit)]

/-- A line ends at the first line feed, or at the end of a closed stream that has none. -/
theorem firstLine_eq_line {closed : Bool} {bytes line rest : List UInt8}
    (h : firstLine closed bytes = .line line rest) :
    (∃ body, lineFeed ∉ body ∧ body.length ≤ lineLimit ∧ line = body ++ [lineFeed] ∧
      bytes = body ++ lineFeed :: rest) ∨ lineFeed ∉ line ∧ rest = [] := by
  by_cases hmem : lineFeed ∈ bytes
  · obtain ⟨text, after, rfl, htext⟩ := List.eq_append_cons_of_mem hmem
    rw [firstLine_ended closed htext] at h
    split at h
    · cases h
    · rename_i hlimit
      cases h
      exact .inl ⟨text, htext, Nat.le_of_not_lt hlimit, rfl, rfl⟩
  · rw [firstLine_unended closed hmem] at h
    split at h
    · cases h
    · split at h
      · cases h
        exact .inr ⟨hmem, rfl⟩
      · cases h

theorem dropWhile_eq_self {bytes : List UInt8} (h : ∀ b ∈ bytes, isBlank b = false) :
    bytes.dropWhile isBlank = bytes := by
  cases bytes with
  | nil => rfl
  | cons b rest => simp [h b (by simp)]

/-- White space around bytes is taken off, and nothing else if there is none among them. -/
theorem trim_between {front bytes back : List UInt8} (hfront : ∀ b ∈ front, isBlank b = true)
    (hbytes : ∀ b ∈ bytes, isBlank b = false) (hback : ∀ b ∈ back, isBlank b = true) :
    trim (front ++ (bytes ++ back)) = bytes := by
  rw [trim, List.dropWhile_append_of_pos hfront]
  cases bytes with
  | nil =>
    rw [List.nil_append, ← List.append_nil back, List.dropWhile_append_of_pos hback]
    rfl
  | cons b rest =>
    rw [List.cons_append, List.dropWhile_cons_of_neg (by simp [hbytes b (by simp)]),
      ← List.cons_append, List.reverse_append,
      List.dropWhile_append_of_pos (by simpa using hback),
      dropWhile_eq_self fun b hb => hbytes b (List.mem_reverse.mp hb), List.reverse_reverse]

/-! ## Lengths -/

/-- The byte of a decimal digit. -/
theorem encodeChar_of_isDigit {c : Char} (h : c.isDigit) :
    ∃ b : UInt8, Utf8.encodeChar c = [b] ∧ b.toNat = c.toNat ∧ isDigit b = true := by
  obtain ⟨hlow, hhigh⟩ := Char.isDigit_iff_toNat.mp h
  have hzero : '0'.toNat = 48 := rfl
  have hnine : '9'.toNat = 57 := rfl
  have hb : (UInt8.ofNat c.toNat).toNat = c.toNat := by
    rw [UInt8.toNat_ofNat']
    omega
  refine ⟨UInt8.ofNat c.toNat, ?_, hb, ?_⟩
  · rw [Utf8.encodeChar, if_pos (by omega)]
  · simp only [isDigit, UInt8.le_iff_toNat_le, hb, UInt8.reduceToNat, Bool.and_eq_true,
      decide_eq_true_eq]
    omega

/-- Digits are read as the number that they stand for, unless they are too many. -/
theorem digitsFrom?_encodeChars {digits : List Char} (hdigits : ∀ c ∈ digits, c.isDigit = true)
    (value count : Nat) : digitsFrom? value count (Utf8.encodeChars digits)
      = if count + digits.length ≤ digitLimit then some (Nat.ofDigitChars 10 digits value)
        else none := by
  induction digits generalizing value count with
  | nil => simp [Utf8.encodeChars, digitsFrom?]
  | cons c digits ih =>
    obtain ⟨b, hencode, hb, hdigit⟩ := encodeChar_of_isDigit (hdigits c (by simp))
    have hzero : '0'.toNat = 48 := rfl
    rw [Utf8.encodeChars, List.flatMap_cons, hencode, List.singleton_append, digitsFrom?.eq_def]
    simp only [hdigit, if_true]
    rw [← Utf8.encodeChars, ih fun d hd => hdigits d (List.mem_cons_of_mem c hd), hb,
      Nat.ofDigitChars_cons, Nat.mul_comm value 10, hzero, List.length_cons]
    congr 2
    omega

theorem digits?_toDigits {n : Nat} (hlength : (Nat.toDigits 10 n).length ≤ digitLimit) :
    digits? (Utf8.encodeChars (Nat.toDigits 10 n)) = some n := by
  have hdigits : ∀ c ∈ Nat.toDigits 10 n, c.isDigit = true :=
    fun c => Nat.isDigit_of_mem_toDigits (by decide) (by decide)
  have hvalue : Nat.ofDigitChars 10 (Nat.toDigits 10 n) 0 = n :=
    Nat.ofDigitChars_toDigits (by decide) (by decide)
  cases hcs : Nat.toDigits 10 n with
  | nil => exact absurd hcs Nat.toDigits_ne_nil
  | cons c cs =>
    rw [hcs] at hlength hdigits hvalue
    obtain ⟨b, hencode, hb, hdigit⟩ := encodeChar_of_isDigit (hdigits c (by simp))
    rw [Utf8.encodeChars, List.flatMap_cons, hencode, List.singleton_append, digits?, if_pos hdigit,
      ← Utf8.encodeChars, digitsFrom?_encodeChars fun d hd => hdigits d (List.mem_cons_of_mem c hd),
      if_pos (by simpa [Nat.add_comm] using hlength), hb]
    rw [Nat.ofDigitChars_cons] at hvalue
    simpa using hvalue

/-- A written length is made of digits, which are no white space. -/
theorem isDigit_of_mem_written {n : Nat} {b : UInt8}
    (h : b ∈ Utf8.encodeChars (Nat.toDigits 10 n)) : isDigit b = true := by
  obtain ⟨c, hc, hb⟩ := List.mem_flatMap.mp h
  obtain ⟨b', hencode, -, hdigit⟩ :=
    encodeChar_of_isDigit (Nat.isDigit_of_mem_toDigits (by decide) (by decide) hc)
  rw [hencode, List.mem_singleton] at hb
  rwa [hb]

theorem isBlank_of_isDigit {b : UInt8} (h : isDigit b = true) : isBlank b = false := by
  simp only [isDigit, isBlank, UInt8.le_iff_toNat_le, ← UInt8.toNat_inj, beq_eq_decide,
    UInt8.reduceToNat, Bool.and_eq_true, Bool.or_eq_false_iff, Bool.and_eq_false_iff,
    decide_eq_true_eq, decide_eq_false_iff_not] at h ⊢
  omega

/-- A length is read back from its decimal digits, white space around them or not. -/
theorem length?_written {n : Nat} (hn : (Nat.toDigits 10 n).length ≤ digitLimit)
    {front back : List UInt8}
    (hfront : ∀ b ∈ front, isBlank b = true) (hback : ∀ b ∈ back, isBlank b = true) :
    length? (front ++ (Utf8.encodeChars (Nat.toDigits 10 n) ++ back)) = some (n : Int) := by
  have htrim := trim_between hfront
    (fun b hb => isBlank_of_isDigit (isDigit_of_mem_written (n := n) hb)) hback
  have hsign : ∀ b, isDigit b = false →
      ∀ rest, Utf8.encodeChars (Nat.toDigits 10 n) ≠ b :: rest := by
    intro b hb rest heq
    have := isDigit_of_mem_written (n := n) (heq ▸ List.mem_cons_self)
    rw [hb] at this
    cases this
  unfold length?
  rw [htrim]
  split
  · rename_i rest heq
    exact absurd heq (hsign 43 (by decide) rest)
  · rename_i rest heq
    exact absurd heq (hsign 45 (by decide) rest)
  · rw [digits?_toDigits hn]
    rfl

/-! ## Frames -/

/-- The header line of a body, without its line feed. -/
def headerOf (body : List UInt8) : List UInt8 :=
  Utf8.ofString "Content-Length" ++ 58 :: ([32] ++ (Utf8.encodeChars
    (Nat.toDigits 10 body.length) ++ [13]))

theorem write_append (body rest : List UInt8) :
    write body ++ rest = headerOf body ++ lineFeed :: ([13] ++ lineFeed :: (body ++ rest)) := by
  have hname : Utf8.ofString "Content-Length: " = Utf8.ofString "Content-Length" ++ [58, 32] := by
    decide
  simp [write, headerOf, hname, lineFeed]

theorem length_write_pos (body : List UInt8) : 0 < (write body).length := by
  simp only [write, List.length_append, List.length_cons]
  omega

theorem lineFeed_notMem_headerOf (body : List UInt8) : lineFeed ∉ headerOf body := by
  have hname : lineFeed ∉ Utf8.ofString "Content-Length" := by decide
  have hdigits : lineFeed ∉ Utf8.encodeChars (Nat.toDigits 10 body.length) := by
    intro h
    have := isDigit_of_mem_written h
    exact absurd this (by decide)
  simp only [headerOf, List.mem_append, List.mem_cons, List.not_mem_nil, hname, hdigits, or_false,
    false_or, not_or]
  decide

theorem length_headerOf_le {body : List UInt8} (h : Framable body) :
    (headerOf body).length ≤ lineLimit := by
  have hdigits : (Nat.toDigits 10 body.length).length ≤ digitLimit := h
  have hname : (Utf8.ofString "Content-Length").length = 14 := by decide
  have hbytes : (Utf8.encodeChars (Nat.toDigits 10 body.length)).length
      = (Nat.toDigits 10 body.length).length := by
    have hone : ∀ c ∈ Nat.toDigits 10 body.length, (Utf8.encodeChar c).length = 1 := by
      intro c hc
      obtain ⟨b, hencode, -⟩ :=
        encodeChar_of_isDigit (Nat.isDigit_of_mem_toDigits (by decide) (by decide) hc)
      rw [hencode, List.length_singleton]
    rw [Utf8.encodeChars, List.length_flatMap, List.map_congr_left hone, List.map_const',
      List.sum_replicate_nat, Nat.mul_one]
  simp only [headerOf, List.length_append, List.length_cons, hname, hbytes, List.length_nil]
  unfold digitLimit at hdigits
  unfold lineLimit
  omega

/-- The header line of a body gives its length. -/
theorem header_headerOf {body : List UInt8} (h : Framable body) (length : Option Int) :
    header length (headerOf body ++ [lineFeed]) = .ok (some (body.length : Int)) := by
  have hline : headerOf body ++ [lineFeed] = Utf8.ofString "Content-Length"
      ++ 58 :: ([32] ++ (Utf8.encodeChars (Nat.toDigits 10 body.length) ++ [13, 10])) := by
    simp [headerOf, lineFeed]
  have hname : (headerOf body ++ [lineFeed]).takeWhile (· != 58)
      = Utf8.ofString "Content-Length" := by
    rw [hline, List.takeWhile_append_of_pos (List.all_eq_true.mp (by decide))]
    simp
  have hlength : length? ([32] ++ (Utf8.encodeChars (Nat.toDigits 10 body.length) ++ [13, 10]))
      = some (body.length : Int) :=
    length?_written h (List.all_eq_true.mp (by decide)) (List.all_eq_true.mp (by decide))
  simp only [header, hname]
  rw [hline, List.drop_left]
  simp only [hlength]
  rw [if_pos (by decide)]

theorem readBody_append (closed : Bool) (body rest : List UInt8) :
    readBody closed (body.length : Int) (body ++ rest) = .message body rest := by
  rw [readBody, if_neg (by omega), if_neg (by simp)]
  simp

/-- One line of a header: it ends the header if it is empty, unless no length is known yet. -/
theorem readFrom_line {closed : Bool} {bytes line rest : List UInt8} (budget : Nat)
    (length : Option Int) (hline : firstLine closed bytes = .line line rest) (hne : line ≠ []) :
    readFrom closed (budget + 1) length bytes =
      if isEmptyLine line then
        match length with
        | none => readFrom closed budget none rest
        | some n => readBody closed n rest
      else
        match header length line with
        | .error e => .failed e
        | .ok length => readFrom closed budget length rest := by
  obtain ⟨b, line, rfl⟩ := List.exists_cons_of_ne_nil hne
  cases hheader : header length (b :: line) with
  | error e => cases length <;> simp only [readFrom, hline, hheader]
  | ok found => cases length <;> simp only [readFrom, hline, hheader]

/-- Reading takes one frame off the front of a stream, whatever its body is and whatever follows. -/
theorem read_write_append (closed : Bool) {body : List UInt8} (h : Framable body)
    (rest : List UInt8) : read closed (write body ++ rest) = .message body rest := by
  have hempty : isEmptyLine (headerOf body ++ [lineFeed]) = false := by
    have hfirst : (headerOf body ++ [lineFeed]).head? = some 67 := rfl
    have hnot : ∀ line : List UInt8, line.head? = some 67 → isEmptyLine line = false := by
      rintro (_ | ⟨b, line⟩) ⟨⟩
      simp [isEmptyLine]
    exact hnot _ hfirst
  have hheader := firstLine_append closed (lineFeed_notMem_headerOf body) (length_headerOf_le h)
    ([13] ++ lineFeed :: (body ++ rest))
  have hblank : firstLine closed ([13] ++ lineFeed :: (body ++ rest))
      = .line ([13] ++ [lineFeed]) (body ++ rest) :=
    firstLine_append closed (by decide) (by decide) (body ++ rest)
  obtain ⟨budget, hbudget⟩ : ∃ budget, (write body ++ rest).length + 1 = budget + 1 + 1 :=
    ⟨(write body ++ rest).length - 1, by
      have := length_write_pos body
      rw [List.length_append]
      omega⟩
  rw [read, hbudget, write_append, readFrom_line _ none hheader (by simp), hempty,
    if_neg (by decide), header_headerOf h]
  dsimp only
  rw [readFrom_line _ _ hblank (by decide), if_pos (by decide)]
  exact readBody_append closed body rest

theorem readBody_more {closed : Bool} (closed' : Bool) {length : Int}
    {front body rest : List UInt8} (h : readBody closed length front = .message body rest)
    (more : List UInt8) : readBody closed' length (front ++ more) = .message body (rest ++ more) := by
  unfold readBody at h
  split at h
  · cases h
  · rename_i hlength
    split at h
    · split at h <;> cases h
    · rename_i hfits
      cases h
      rw [readBody, if_neg hlength, if_neg (by simp; omega),
        List.take_append_of_le_length (by omega), List.drop_append_of_le_length (by omega)]

theorem readFrom_nil_ne_message (closed : Bool) (budget : Nat) (length : Option Int)
    (body rest : List UInt8) : readFrom closed budget length [] ≠ .message body rest := by
  cases budget with
  | zero => nofun
  | succ budget => cases closed <;> nofun

/-- A message that the bytes at hand hold is the same message when more bytes come in. -/
theorem readFrom_append {closed : Bool} (closed' : Bool) {budget budget' : Nat}
    (hbudget : budget ≤ budget') {length : Option Int} {front body rest : List UInt8}
    (h : readFrom closed budget length front = .message body rest) (more : List UInt8) :
    readFrom closed' budget' length (front ++ more) = .message body (rest ++ more) := by
  induction budget generalizing budget' length front with
  | zero => cases h
  | succ budget ih =>
    obtain ⟨budget', rfl⟩ : ∃ n, budget' = n + 1 := ⟨budget' - 1, by omega⟩
    cases hline : firstLine closed front with
    | pending => rw [readFrom, hline] at h; cases h
    | failed e => rw [readFrom, hline] at h; cases h
    | line line after =>
      have hne : line ≠ [] := by
        rintro rfl
        rw [readFrom, hline] at h
        cases h
      rw [readFrom_line budget length hline hne] at h
      rcases firstLine_eq_line hline with ⟨text, htext, hlimit, rfl, rfl⟩ | ⟨hend, rfl⟩
      · have hmore := firstLine_append closed' htext hlimit (after ++ more)
        rw [List.append_assoc, List.cons_append, readFrom_line budget' length hmore hne]
        split at h
        · rename_i hempty
          rw [if_pos hempty]
          cases length with
          | none => exact ih (by omega) h
          | some n => exact readBody_more closed' h more
        · rename_i hempty
          rw [if_neg hempty]
          split at h
          · cases h
          · exact ih (by omega) h
      · have hempty : isEmptyLine line = false := by
          by_contra hempty
          simp only [isEmptyLine, Bool.not_eq_false, Bool.or_eq_true, beq_iff_eq] at hempty
          rcases hempty with rfl | rfl <;> exact hend (by decide)
        rw [hempty, if_neg (by decide)] at h
        split at h
        · cases h
        · exact absurd h (readFrom_nil_ne_message closed budget _ body rest)

/-- A message that is read from the bytes at hand is the first of every stream that starts with
them. -/
theorem read_append {closed : Bool} (closed' : Bool) {front body rest : List UInt8}
    (h : read closed front = .message body rest) (more : List UInt8) :
    read closed' (front ++ more) = .message body (rest ++ more) :=
  readFrom_append closed' (by simp) h more

/-- At most as many frames as the budget allows are read back, in order. -/
theorem readAllFrom_write {bodies : List (List UInt8)} (h : ∀ body ∈ bodies, Framable body)
    {budget : Nat} (hbudget : bodies.length < budget) :
    readAllFrom budget (bodies.map write).flatten = (bodies, .ended) := by
  induction bodies generalizing budget with
  | nil =>
    obtain ⟨budget, rfl⟩ := Nat.exists_eq_add_one.mpr hbudget
    rfl
  | cons body bodies ih =>
    obtain ⟨budget, rfl⟩ := Nat.exists_eq_add_one.mpr (Nat.zero_lt_of_lt hbudget)
    rw [List.map_cons, List.flatten_cons, readAllFrom,
      read_write_append true (h body (by simp))]
    dsimp only
    rw [ih (fun other hother => h other (by simp [hother])) (by simpa using hbudget)]

/-- Frames are not empty, so a stream has no more of them than bytes. -/
theorem length_le_length_frames (bodies : List (List UInt8)) :
    bodies.length ≤ (bodies.map write).flatten.length := by
  induction bodies with
  | nil => simp
  | cons body bodies ih =>
    have := length_write_pos body
    simp only [List.map_cons, List.flatten_cons, List.length_cons, List.length_append]
    omega

/-- A stream of frames is read back as the list of their bodies. -/
theorem readAll_write {bodies : List (List UInt8)} (h : ∀ body ∈ bodies, Framable body) :
    readAll (bodies.map write).flatten = (bodies, .ended) :=
  readAllFrom_write h (Nat.lt_succ_of_le (length_le_length_frames bodies))

end SfcProxy.Frame
