import Mathlib.Tactic.Common
import SfcProxy.Proofs.Text

/-!
# Reading back what was encoded

The bytes of a character are well-formed: behind the leading byte, each continuation byte lies in
the range that the leading byte calls for. So both readers take the bytes of a character for that
character, and give back what was encoded.

## Main results

* `Utf8.next_encodeChar`: the bytes of a character are read as the character
* `Utf8.decode_encodeChars`, `Utf8.decodeLossy_encodeChars`: both readers give the characters back
-/

namespace SfcProxy.Utf8

/-- A code point is no surrogate, and below a bound. -/
theorem toNat_bounds (c : Char) : (c.toNat < 0xD800 ∨ 0xDFFF < c.toNat) ∧ c.toNat < 0x110000 := by
  have hvalid : c.toNat.isValidChar := c.valid
  unfold Nat.isValidChar at hvalid
  omega

/-! ## Strings

Evaluation is fast on lists of characters, but not on strings. So before a fact about the bytes of
a string is decided, the string is taken apart into its characters. -/

/-- The bytes of the characters of a string. The index leaves the string out, so that `simp` finds
literals. -/
theorem ofString_ofList (cs : List Char) :
    ofString (no_index (String.ofList cs)) = encodeChars cs := by
  rw [ofString, String.toList_ofList]

theorem ofString_append (s t : String) : ofString (s ++ t) = ofString s ++ ofString t := by
  rw [ofString, String.toList_append, encodeChars, List.flatMap_append, ofString, ofString,
    encodeChars, encodeChars]

/-! ## Leading bytes -/

theorem lead_one : ∀ m < 0x80, lead (UInt8.ofNat m) = some (m, []) := by
  decide

theorem lead_two : ∀ m < 32, m < 2 ∨ lead (UInt8.ofNat (0xC0 + m)) = some (m, [(0x80, 0xBF)]) := by
  decide

/-- Two leading bytes of three exclude what is too long, and surrogates. -/
theorem lead_three : ∀ m < 16, lead (UInt8.ofNat (0xE0 + m))
    = some (m, [(if m = 0 then 0xA0 else 0x80, if m = 13 then 0x9F else 0xBF), (0x80, 0xBF)]) := by
  decide

/-- Two leading bytes of four exclude what is too long, and what is too large. -/
theorem lead_four : ∀ m < 5, lead (UInt8.ofNat (0xF0 + m))
    = some (m, [(if m = 0 then 0x90 else 0x80, if m = 4 then 0x8F else 0xBF), (0x80, 0xBF),
      (0x80, 0xBF)]) := by
  decide

/-! ## One character -/

/-- A continuation byte in its range adds six bits. -/
theorem continueFrom_byte {payload size lo hi n : Nat} {ranges : List (Nat × Nat)}
    {bytes : List UInt8} (hn : n < 64) (hlo : lo ≤ 0x80 + n) (hhi : 0x80 + n ≤ hi) :
    continueFrom payload size ((lo, hi) :: ranges) (UInt8.ofNat (0x80 + n) :: bytes)
      = continueFrom (payload * 64 + n) (size + 1) ranges bytes := by
  have hbyte : (UInt8.ofNat (0x80 + n)).toNat = 0x80 + n :=
    UInt8.toNat_ofNat_of_lt (by change _ < 256; omega)
  rw [continueFrom, hbyte, if_pos ⟨hlo, hhi⟩, show (0x80 + n) % 64 = n by omega]

/-- The bytes of a character are read as the character, whatever stands behind them. -/
theorem next_encodeChar (c : Char) (rest : List UInt8) :
    ∃ b bytes, encodeChar c = b :: bytes ∧
      next b (bytes ++ rest) = .char c (encodeChar c).length := by
  obtain ⟨hsurrogate, hmax⟩ := toNat_bounds c
  have hc : Char.ofNat c.toNat = c := Char.ofNat_toNat c
  generalize hn : c.toNat = n at hsurrogate hmax hc
  unfold encodeChar
  rw [hn]
  dsimp only
  -- One case for each length. The code point is put together again from pieces of six bits.
  split
  · refine ⟨_, _, rfl, ?_⟩
    rw [next, lead_one n ‹_›, ← hc]
    rfl
  · split
    · refine ⟨_, _, rfl, ?_⟩
      rw [next, (lead_two (n / 64) (by omega)).resolve_left (by omega)]
      dsimp only [List.cons_append]
      rw [continueFrom_byte (by omega) (by omega) (by omega), continueFrom,
        show n / 64 * 64 + n % 64 = n by omega, hc]
      rfl
    · split
      · refine ⟨_, _, rfl, ?_⟩
        rw [next, lead_three (n / 4096) (by omega)]
        dsimp only [List.cons_append]
        rw [continueFrom_byte (by omega) (by split <;> omega) (by split <;> omega),
          continueFrom_byte (by omega) (by omega) (by omega), continueFrom,
          show (n / 4096 * 64 + n / 64 % 64) * 64 + n % 64 = n by omega, hc]
        rfl
      · refine ⟨_, _, rfl, ?_⟩
        rw [next, lead_four (n / 262144) (by omega)]
        dsimp only [List.cons_append]
        rw [continueFrom_byte (by omega) (by split <;> omega) (by split <;> omega),
          continueFrom_byte (by omega) (by omega) (by omega),
          continueFrom_byte (by omega) (by omega) (by omega), continueFrom,
          show ((n / 262144 * 64 + n / 4096 % 64) * 64 + n / 64 % 64) * 64 + n % 64 = n by omega,
          hc]
        rfl

/-- A byte of ASCII is the only byte of its character. -/
theorem encodeChar_of_mem {c : Char} {b : UInt8} (hb : b ∈ encodeChar c) (hascii : b.toNat < 0x80) :
    c.toNat = b.toNat := by
  have hmax := (toNat_bounds c).2
  unfold encodeChar at hb
  generalize c.toNat = n at hb hmax ⊢
  dsimp only at hb
  split at hb
  · obtain rfl := List.mem_singleton.mp hb
    rw [UInt8.toNat_ofNat']
    omega
  · -- Every byte of a longer encoding has its highest bit set.
    exfalso
    split at hb
    · simp only [List.mem_cons, List.not_mem_nil, or_false] at hb
      rcases hb with rfl | rfl
      all_goals
        rw [UInt8.toNat_ofNat'] at hascii
        omega
    · split at hb
      all_goals
        simp only [List.mem_cons, List.not_mem_nil, or_false] at hb
      · rcases hb with rfl | rfl | rfl
        all_goals
          rw [UInt8.toNat_ofNat'] at hascii
          omega
      · rcases hb with rfl | rfl | rfl | rfl
        all_goals
          rw [UInt8.toNat_ofNat'] at hascii
          omega

theorem encodeChar_ascii {c : Char} (h : c.toNat < 0x80) : encodeChar c = [UInt8.ofNat c.toNat] :=
  if_pos h

/-! ## Many characters -/

theorem decodeFrom_encodeChar (position : Nat) (read : List Char) (c : Char) (rest : List UInt8) :
    decodeFrom position read (encodeChar c ++ rest)
      = decodeFrom (position + (encodeChar c).length) (c :: read) rest := by
  obtain ⟨b, bytes, hbytes, hnext⟩ := next_encodeChar c rest
  rw [hbytes] at hnext ⊢
  rw [List.cons_append, decodeFrom, hnext]
  dsimp only
  rw [List.length_cons, Nat.add_sub_cancel, List.drop_left]

theorem decodeLossyFrom_encodeChar (read : List Char) (c : Char) (rest : List UInt8) :
    decodeLossyFrom read (encodeChar c ++ rest) = decodeLossyFrom (c :: read) rest := by
  obtain ⟨b, bytes, hbytes, hnext⟩ := next_encodeChar c rest
  rw [hbytes] at hnext ⊢
  rw [List.cons_append, decodeLossyFrom, hnext]
  dsimp only
  rw [List.length_cons, Nat.add_sub_cancel, List.drop_left]

theorem decodeFrom_encodeChars (position : Nat) (read cs : List Char) :
    decodeFrom position read (encodeChars cs) = .ok (read.reverse ++ cs) := by
  induction cs generalizing position read with
  | nil => rw [encodeChars, List.flatMap_nil, decodeFrom, List.append_nil]
  | cons c cs ih =>
    rw [encodeChars, List.flatMap_cons, decodeFrom_encodeChar, ← encodeChars, ih,
      List.reverse_cons, List.append_assoc, List.singleton_append]

theorem decodeLossyFrom_encodeChars (read cs : List Char) :
    decodeLossyFrom read (encodeChars cs) = read.reverse ++ cs := by
  induction cs generalizing read with
  | nil => rw [encodeChars, List.flatMap_nil, decodeLossyFrom, List.append_nil]
  | cons c cs ih =>
    rw [encodeChars, List.flatMap_cons, decodeLossyFrom_encodeChar, ← encodeChars, ih,
      List.reverse_cons, List.append_assoc, List.singleton_append]

/-- The strict reader gives back what was encoded. -/
theorem decode_encodeChars (cs : List Char) : decode (encodeChars cs) = .ok cs :=
  decodeFrom_encodeChars 0 [] cs

/-- And so does the lenient one. -/
theorem decodeLossy_encodeChars (cs : List Char) : decodeLossy (encodeChars cs) = cs :=
  decodeLossyFrom_encodeChars [] cs

end SfcProxy.Utf8
