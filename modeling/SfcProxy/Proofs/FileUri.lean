import Mathlib.Data.List.TakeWhile
import SfcProxy.Proofs.Casing
import SfcProxy.Proofs.UriMap
import SfcProxy.Proofs.Utf8

/-!
# Paths in URIs and back

In the URI of a path, all bytes that could be taken for something else are escaped. So the URI is
cut into host and path at the right places, and undoing the escapes gives host and path back. What
is not given back is the case of a drive letter, the slash in front of it, and the want of a slash
in front of a path that starts at the current directory. The last name of the path ends as before.

## Main definitions

* `FileUri.slashed`: a written path behind a slash
* `FileUri.readBack`: what is read from a URI that was written from a host and a path

## Main results

* `FileUri.unescape_escape`: undoing escapes
* `FileUri.pathText_of_ofPath`: what is read from the URI of a path
* `FileUri.suffix_name_of_ofPath`: the last name ends as before
-/

namespace SfcProxy

/-! ## Endings -/

namespace Text

/-- An ending that does without a unit lies behind it. -/
theorem suffix_of_notMem {ending back : Text} {u : TextUnit} (front : Text)
    (h : ending <:+ front ++ u :: back) (hu : u ∉ ending) : ending <:+ back := by
  rcases List.suffix_or_suffix_of_suffix h (List.suffix_append front (u :: back)) with h | h
  · rcases List.suffix_cons_iff.mp h with rfl | h
    · exact absurd List.mem_cons_self hu
    · exact h
  · exact absurd (h.subset List.mem_cons_self) hu

/-- A unit becomes at most two. -/
theorem length_flatMap_lower_le (t : Text) : (t.flatMap TextUnit.lower).length ≤ 2 * t.length := by
  induction t with
  | nil => simp
  | cons u t ih =>
    have hu : u.lower.length ≤ 2 := by
      unfold TextUnit.lower
      split <;> simp
    rw [List.flatMap_cons, List.length_append, List.length_cons]
    omega

theorem splitOn_of_forall {cut : TextUnit → Bool} {t : Text} (h : ∀ u ∈ t, cut u = false) :
    t.splitOn cut = [t] := by
  induction t with
  | nil => rfl
  | cons u rest ih =>
    rw [splitOn, h u List.mem_cons_self, ih fun v hv => h v (List.mem_cons_of_mem u hv)]
    rfl

/-- An ending in which there is no cut is one of the last piece. -/
theorem exists_splitOn_eq_concat {cut : TextUnit → Bool} {t ending : Text} (h : ending <:+ t)
    (hending : ∀ u ∈ ending, cut u = false) :
    ∃ front last, t.splitOn cut = front ++ [last] ∧ ending <:+ last := by
  induction t with
  | nil => exact ⟨[], [], rfl, h⟩
  | cons u rest ih =>
    rcases List.suffix_cons_iff.mp h with rfl | h
    · exact ⟨[], u :: rest, splitOn_of_forall hending, List.suffix_rfl⟩
    · obtain ⟨front, last, hsplit, hlast⟩ := ih h
      rw [splitOn, hsplit]
      split
      · exact ⟨[] :: front, last, rfl, hlast⟩
      · cases front with
        | nil => exact ⟨[], u :: last, rfl, hlast.trans (List.suffix_cons u last)⟩
        | cons piece pieces => exact ⟨(u :: piece) :: pieces, last, rfl, hlast⟩

theorem suffix_join (separator : Text) (front : List Text) (last : Text) :
    last <:+ join separator (front ++ [last]) := by
  induction front with
  | nil =>
    have hlast : join separator ([] ++ [last]) = last := by
      rw [List.nil_append, join, List.intercalate, List.intersperse, List.flatten_singleton]
    exact ⟨[], hlast.symm⟩
  | cons part front ih =>
    refine ih.trans ?_
    cases front with
    | nil | cons _ _ =>
      simp only [List.cons_append, List.nil_append, join_cons_cons]
      exact List.suffix_append _ _

end Text

namespace Path

/-- The last name of a path ends like the text of the path. -/
theorem suffix_name_ofText {t ending : Text} (h : ending <:+ t)
    (hslash : .scalar '/' ∉ ending) (hlength : 2 ≤ ending.length) :
    ending <:+ (ofText t).name := by
  have hcut : ∀ u ∈ ending, isSlash u = false := by
    intro u hu
    rw [isSlash, beq_eq_false_iff_ne]
    rintro rfl
    exact hslash hu
  obtain ⟨front, last, hsplit, hlast⟩ := Text.exists_splitOn_eq_concat h hcut
  have hlong : 2 ≤ last.length := Nat.le_trans hlength hlast.length_le
  have hkept : (!last.isEmpty && last != Text.ofString ".") = true := by
    rw [Bool.and_eq_true, Bool.not_eq_true', List.isEmpty_eq_false_iff, bne_iff_ne]
    constructor
    all_goals
      rintro rfl
      exact absurd hlong (by decide)
  have hparts : (ofText t).parts
      = (front.filter fun part => !part.isEmpty && part != Text.ofString ".") ++ [last] := by
    rw [ofText, components, hsplit, List.filter_append, List.filter_singleton, hkept, cond_true]
  rw [name, hparts, List.getLastD_concat]
  exact hlast

/-- The text of a path ends in its last name. -/
theorem suffix_text (p : Path) : p.name <:+ p.text := by
  rcases List.eq_nil_or_concat p.parts with hnil | ⟨front, last, hconcat⟩
  · rw [name, hnil]
    exact List.nil_suffix
  · have htext : p.text = p.anchor.text ++ Text.join "/" p.parts := by
      unfold text
      split
      · rename_i hparts
        rw [hconcat] at hparts
        simp at hparts
      · rfl
    rw [List.concat_eq_append] at hconcat
    rw [htext, name, hconcat, List.getLastD_concat]
    exact (Text.suffix_join "/" front last).trans (List.suffix_append _ _)

end Path

namespace FileUri

/-! ## Escapes -/

theorem unescapeBytes_cons {u : TextUnit} (h : u ≠ .scalar '%') (rest : Text) :
    unescapeBytes (u :: rest) = UInt8.ofNat u.codePoint :: unescapeBytes rest :=
  unescapeBytes.eq_2 u rest fun _ _ _ hu => absurd hu h

/-- The units of a URI that mean something to those who read it. -/
def delimiters : List TextUnit :=
  [.scalar '?', .scalar '#', .scalar '[', .scalar ']', .scalar '\t', .scalar '\r', .scalar '\n']

/-- A hexadecimal digit is read as what it stands for, and is a plain unit of a URI. -/
theorem hexDigit_spec : ∀ n < 16, Json.hexDigit? (hexDigit n) = some n ∧
    isAscii (.scalar (hexDigit n)) = true ∧ .scalar (hexDigit n) ∉ delimiters ∧
    hexDigit n ≠ '/' := by
  decide

/-- A byte that is not escaped is a character of its own, and a plain unit of a URI. -/
theorem isSafe_spec : ∀ n < 256, isSafe (UInt8.ofNat n) = true →
    (Char.ofNat n).toNat = n ∧ Char.ofNat n ≠ '%' ∧ isAscii (.scalar (Char.ofNat n)) = true ∧
      .scalar (Char.ofNat n) ∉ delimiters := by
  decide +kernel

theorem unescapeBytes_escapeByte (b : UInt8) (rest : Text) :
    unescapeBytes (escapeByte b ++ rest) = b :: unescapeBytes rest := by
  have hb : b.toNat < 256 := b.toNat_lt
  unfold escapeByte
  split
  · rename_i hsafe
    obtain ⟨hcode, hpercent, -⟩ := isSafe_spec b.toNat hb (by rwa [UInt8.ofNat_toNat])
    rw [List.singleton_append, unescapeBytes_cons (by simpa using hpercent), TextUnit.codePoint,
      hcode, UInt8.ofNat_toNat]
  · dsimp only [List.cons_append, List.nil_append]
    rw [unescapeBytes, (hexDigit_spec _ (by omega)).1, (hexDigit_spec _ (by omega)).1]
    dsimp only
    rw [Nat.div_add_mod' b.toNat 16, UInt8.ofNat_toNat]

theorem unescapeBytes_flatMap_escapeByte (bytes : List UInt8) :
    unescapeBytes (bytes.flatMap escapeByte) = bytes := by
  induction bytes with
  | nil => rfl
  | cons b bytes ih => rw [List.flatMap_cons, unescapeBytes_escapeByte, ih]

/-- Escapes are ASCII, without delimiters; a slash in them stands for itself. -/
theorem escapeByte_spec (b : UInt8) : ∀ u ∈ escapeByte b,
    isAscii u = true ∧ u ∉ delimiters ∧ (u = .scalar '/' → b = 47) := by
  have hb : b.toNat < 256 := b.toNat_lt
  intro u hu
  unfold escapeByte at hu
  split at hu
  · rename_i hsafe
    obtain ⟨hcode, -, hascii, hdelimiter⟩ :=
      isSafe_spec b.toNat hb (by rwa [UInt8.ofNat_toNat])
    obtain rfl := List.mem_singleton.mp hu
    refine ⟨hascii, hdelimiter, fun hslash => ?_⟩
    rw [TextUnit.scalar.inj hslash] at hcode
    exact UInt8.toNat_inj.mp hcode.symm
  · have hdigit : ∀ n < 16, u = .scalar (hexDigit n) →
        isAscii u = true ∧ u ∉ delimiters ∧ (u = .scalar '/' → b = 47) := by
      rintro n hn rfl
      obtain ⟨-, hascii, hdelimiter, hslash⟩ := hexDigit_spec n hn
      exact ⟨hascii, hdelimiter, fun h => absurd (TextUnit.scalar.inj h) hslash⟩
    simp only [List.mem_cons, List.not_mem_nil, or_false] at hu
    rcases hu with rfl | hu | hu
    · exact ⟨by decide, by decide, fun h => absurd h (by decide)⟩
    · exact hdigit _ (by omega) hu
    · exact hdigit _ (by omega) hu

/-- In ASCII text, escapes are undone all at once. -/
theorem unescapeFrom_of_ascii {t : Text} (h : ∀ u ∈ t, isAscii u = true) (run : Text) :
    unescapeFrom run t
      = Text.ofChars (Utf8.decodeLossy (unescapeBytes (run.reverse ++ t))) := by
  induction t generalizing run with
  | nil => rw [unescapeFrom, List.append_nil]
  | cons u t ih =>
    rw [unescapeFrom, if_pos (h u List.mem_cons_self),
      ih fun v hv => h v (List.mem_cons_of_mem u hv), List.reverse_cons, List.append_assoc,
      List.singleton_append]

theorem escape_eq_ok {t written : Text} (h : escape t = .ok written) :
    ∃ cs, t = Text.ofChars cs ∧ written = (Utf8.encodeChars cs).flatMap escapeByte := by
  unfold escape at h
  split at h
  · rename_i bytes hbytes
    unfold Utf8.encode at hbytes
    split at hbytes
    · rename_i cs hcs
      cases hbytes
      cases h
      exact ⟨cs, Text.chars?_eq_some_iff.mp hcs, rfl⟩
    · cases hbytes
  · cases h

/-- Escaped text is ASCII without delimiters. -/
theorem mem_escape {t written : Text} (h : escape t = .ok written) {u : TextUnit}
    (hu : u ∈ written) : isAscii u = true ∧ u ∉ delimiters := by
  obtain ⟨cs, -, rfl⟩ := escape_eq_ok h
  obtain ⟨b, -, hb⟩ := List.mem_flatMap.mp hu
  exact ⟨(escapeByte_spec b u hb).1, (escapeByte_spec b u hb).2.1⟩

/-- Escaped text has a slash only where the text has one. -/
theorem slash_notMem_escape {t written : Text} (h : escape t = .ok written)
    (ht : .scalar '/' ∉ t) : .scalar '/' ∉ written := by
  obtain ⟨cs, rfl, rfl⟩ := escape_eq_ok h
  intro hslash
  obtain ⟨b, hb, hslash⟩ := List.mem_flatMap.mp hslash
  obtain ⟨c, hc, hb⟩ := List.mem_flatMap.mp hb
  obtain rfl := (escapeByte_spec b _ hslash).2.2 rfl
  have hcode := Utf8.encodeChar_of_mem hb (by decide)
  obtain rfl : c = '/' := Char.toNat_inj.mp hcode
  exact ht (List.mem_map_of_mem hc)

theorem unescapeBytes_plain {plain : List Char} (h : ∀ c ∈ plain, c.toNat < 0x80 ∧ c ≠ '%')
    (rest : Text) :
    unescapeBytes (Text.ofChars plain ++ rest) = Utf8.encodeChars plain ++ unescapeBytes rest := by
  induction plain with
  | nil => rfl
  | cons c plain ih =>
    obtain ⟨hascii, hpercent⟩ := h c List.mem_cons_self
    rw [Utf8.encodeChars, List.flatMap_cons, Utf8.encodeChar_ascii hascii, List.append_assoc,
      ← Utf8.encodeChars, ← ih fun d hd => h d (List.mem_cons_of_mem c hd)]
    exact unescapeBytes_cons (by simpa using hpercent) _

/-- Undoing the escapes gives the text back, also behind plain text. -/
theorem unescape_plain_escape {plain : List Char} (hplain : ∀ c ∈ plain, c.toNat < 0x80 ∧ c ≠ '%')
    {t written : Text} (h : escape t = .ok written) :
    unescape (Text.ofChars plain ++ written) = Text.ofChars plain ++ t := by
  have hascii : ∀ u ∈ Text.ofChars plain ++ written, isAscii u = true := by
    intro u hu
    rcases List.mem_append.mp hu with hu | hu
    · obtain ⟨c, hc, rfl⟩ := List.mem_map.mp hu
      exact decide_eq_true (hplain c hc).1
    · exact (mem_escape h hu).1
  obtain ⟨cs, rfl, rfl⟩ := escape_eq_ok h
  have hencode : Utf8.encodeChars plain ++ Utf8.encodeChars cs = Utf8.encodeChars (plain ++ cs) :=
    List.flatMap_append.symm
  rw [unescape, unescapeFrom_of_ascii hascii, List.reverse_nil, List.nil_append,
    unescapeBytes_plain hplain, unescapeBytes_flatMap_escapeByte, hencode,
    Utf8.decodeLossy_encodeChars, Text.ofChars, List.map_append, ← Text.ofChars, ← Text.ofChars]

/-- Undoing escapes. -/
theorem unescape_escape {t written : Text} (h : escape t = .ok written) : unescape written = t :=
  @unescape_plain_escape [] nofun t written h

/-! ## Host and path -/

/-- A host without brackets is no address. -/
theorem checkBrackets_of_forall {host : Text} (h : ∀ u ∈ host, u ∉ delimiters) :
    checkBrackets host = .ok () := by
  have hopening : host.any (Host.isChar '[') = false := by
    rw [List.any_eq_false]
    intro u hu hbracket
    exact h u hu (by simp [delimiters, eq_of_beq hbracket])
  have hclosing : host.any (Host.isChar ']') = false := by
    rw [List.any_eq_false]
    intro u hu hbracket
    exact h u hu (by simp [delimiters, eq_of_beq hbracket])
  rw [checkBrackets, hopening, hclosing]
  rfl

theorem endsHost_of_notMem {u : TextUnit} (h : u ∉ delimiters) (hslash : u ≠ .scalar '/') :
    endsHost u = false := by
  rw [endsHost, Bool.or_eq_false_iff, Bool.or_eq_false_iff, beq_eq_false_iff_ne,
    beq_eq_false_iff_ne, beq_eq_false_iff_ne]
  refine ⟨⟨hslash, ?_⟩, ?_⟩
  all_goals
    rintro rfl
    exact h (by simp [delimiters])

/-- Nothing in ASCII comes to a delimiter under compatibility forms. -/
theorem not_folded_of_isAscii {host : Text} (h : ∀ u ∈ host, isAscii u = true) :
    (host.any fun u => foldedDelimiters.contains u.codePoint) = false := by
  rw [List.any_eq_false]
  intro u hu hfolded
  have hascii : u.codePoint < 0x80 := of_decide_eq_true (h u hu)
  have hlarge : ∀ n ∈ foldedDelimiters, 0x80 ≤ n := by decide
  exact absurd (hlarge _ (List.contains_iff_mem.mp hfolded)) (Nat.not_le.mpr hascii)

/-- What an escaped host and path are cut into. -/
theorem hostAndPath_append {host path : Text}
    (hhost : ∀ u ∈ host, isAscii u = true ∧ u ∉ delimiters) (hslash : .scalar '/' ∉ host)
    (hpath : ∀ u ∈ path, u ∉ delimiters) :
    hostAndPath (("//" : Text) ++ host ++ .scalar '/' :: path)
      = .ok (host, .scalar '/' :: path) := by
  have hends : ∀ u ∈ host, (!endsHost u) = true := by
    intro u hu
    rw [endsHost_of_notMem (hhost u hu).2 fun heq => hslash (heq ▸ hu)]
    rfl
  have hall : (.scalar '/' :: path : Text).takeWhile (fun u => u != .scalar '#' && u != .scalar '?')
      = .scalar '/' :: path := by
    refine List.takeWhile_eq_self_iff.mpr fun u hu => ?_
    have hnot : u ∉ delimiters := by
      rcases List.mem_cons.mp hu with rfl | hu
      · decide
      · exact hpath u hu
    rw [Bool.and_eq_true, bne_iff_ne, bne_iff_ne]
    constructor
    all_goals
      rintro rfl
      exact hnot (by simp [delimiters])
  have htext : ("//" : Text) ++ host ++ .scalar '/' :: path
      = .scalar '/' :: .scalar '/' :: (host ++ .scalar '/' :: path) := by
    simp [Text.ofString, Text.ofChars]
  rw [htext, hostAndPath]
  dsimp only
  rw [List.takeWhile_append_of_pos hends, List.dropWhile_append_of_pos hends,
    List.takeWhile_cons_of_neg (by decide), List.dropWhile_cons_of_neg (by decide),
    List.append_nil, checkBrackets_of_forall fun u hu => (hhost u hu).2, hall,
    not_folded_of_isAscii fun u hu => (hhost u hu).1]
  rfl

/-! ## Drive letters -/

/-- The lower-case form of a letter is a letter in lower case. -/
theorem lower_letter {c : Char} (h : c.isAlpha = true) :
    ∃ d : Char, Text.lower [.scalar c] = [.scalar d] ∧ Text.lower [.scalar d] = [.scalar d] ∧
      d.isAlpha = true ∧ d.toNat < 0x80 ∧ d ≠ '%' ∧ .scalar d ∉ delimiters := by
  have hascii : c.toNat < 128 := by
    rcases (Bool.or_eq_true c.isUpper c.isLower).mp h with h | h
    · have hle : c.val ≤ 'Z'.val := (of_decide_eq_true h).2
      exact Nat.lt_of_le_of_lt (UInt32.le_iff_toNat_le.mp hle) (by decide)
    · have hle : c.val ≤ 'z'.val := of_decide_eq_true (Bool.and_eq_true_iff.mp h).2
      exact Nat.lt_of_le_of_lt (UInt32.le_iff_toNat_le.mp hle) (by decide)
  have hall : ∀ n < 128, (Char.ofNat n).isAlpha = true →
      (Char.ofNat (Text.lowerAscii n)).toNat = Text.lowerAscii n ∧ Text.lowerAscii n < 128 ∧
      Text.lowerAscii (Text.lowerAscii n) = Text.lowerAscii n ∧
      (Char.ofNat (Text.lowerAscii n)).isAlpha = true ∧ Char.ofNat (Text.lowerAscii n) ≠ '%' ∧
      .scalar (Char.ofNat (Text.lowerAscii n)) ∉ delimiters := by
    decide +kernel
  obtain ⟨hcode, hsmall, hfixed, halpha, hpercent, hdelimiter⟩ :=
    hall c.toNat hascii (by rwa [Char.ofNat_toNat])
  refine ⟨Char.ofNat (Text.lowerAscii c.toNat), Text.lower_ascii hascii, ?_, halpha,
    hcode.symm ▸ hsmall, hpercent, hdelimiter⟩
  have hlower := Text.lower_ascii (hcode.symm ▸ hsmall)
  rwa [hcode, hfixed] at hlower

/-- A path with its drive letter in lower case, if it has one. -/
def lowerDrive (path : Text) : Text :=
  if isDrivePath path then path.take 1 ++ Text.lower ((path.drop 1).take 1) ++ path.drop 2
  else path

theorem isDrivePath_cases {path : Text} (h : isDrivePath path = true) :
    ∃ c rest, path = .scalar '/' :: .scalar c :: .scalar ':' :: rest ∧ c.isAlpha = true := by
  unfold isDrivePath at h
  split at h
  · rename_i c rest
    exact ⟨c, rest, rfl, h⟩
  · cases h

/-- A path as it stands in a URI, where the colon behind a drive letter is not escaped. -/
def writtenPath (path : Text) : Except Error Text :=
  if isDrivePath path then do
    let rest ← escape (path.drop 3)
    pure (path.take 1 ++ Text.lower ((path.drop 1).take 1) ++ (path.drop 2).take 1 ++ rest)
  else escape path

/-- A path in a URI is read as it was, but for the case of a drive letter. -/
theorem writtenPath_spec {path written : Text}
    (h : writtenPath (.scalar '/' :: path) = .ok written) :
    (∃ rest, written = .scalar '/' :: rest) ∧ (∀ u ∈ written, u ∉ delimiters) ∧
      unescape written = lowerDrive (.scalar '/' :: path) := by
  unfold writtenPath at h
  unfold lowerDrive
  split at h
  · rename_i hdrive
    obtain ⟨c, rest, hpath, hc⟩ := isDrivePath_cases hdrive
    obtain ⟨d, hd, -, -, hascii, hpercent, hdelimiter⟩ := lower_letter hc
    rw [hpath] at h ⊢
    obtain ⟨escaped, hescaped, h⟩ := bind_eq_ok h
    dsimp only [List.drop, List.take] at hescaped h ⊢
    rw [hd] at h ⊢
    obtain rfl := Except.ok.inj h
    have hplain : ∀ e ∈ ['/', d, ':'], e.toNat < 0x80 ∧ e ≠ '%' := by
      simp [hascii, hpercent]
    refine ⟨⟨_, rfl⟩, fun u hu => ?_, ?_⟩
    · rcases List.mem_append.mp hu with hu | hu
      · simp only [List.cons_append, List.nil_append, List.mem_cons, List.not_mem_nil,
          or_false] at hu
        rcases hu with rfl | rfl | rfl
        · decide
        · exact hdelimiter
        · decide
      · exact (mem_escape hescaped hu).2
    · rw [if_pos (hpath ▸ hdrive)]
      exact unescape_plain_escape hplain hescaped
  · rename_i hdrive
    rw [if_neg hdrive]
    refine ⟨?_, fun u hu => (mem_escape h hu).2, unescape_escape h⟩
    obtain ⟨cs, hcs, rfl⟩ := escape_eq_ok h
    cases cs with
    | nil => cases hcs
    | cons c cs =>
      obtain ⟨hc, -⟩ := List.cons.inj hcs
      obtain rfl := TextUnit.scalar.inj hc
      exact ⟨_, rfl⟩

/-! ## What is read back -/

/-- A written path behind a slash. -/
def slashed (path : Text) : Text :=
  if path.head? = some (.scalar '/') then path else .scalar '/' :: path

theorem exists_slashed (path : Text) : ∃ rest, slashed path = .scalar '/' :: rest := by
  unfold slashed
  split
  · rename_i hhead
    exact ⟨_, (List.cons_head?_tail hhead).symm⟩
  · exact ⟨path, rfl⟩

theorem suffix_slashed (path : Text) : path <:+ slashed path := by
  unfold slashed
  split
  · exact List.suffix_rfl
  · exact List.suffix_cons _ _

/-- What is read from a URI that was written from a host and a path. -/
def readBack (host path : Text) : Text :=
  if !host.isEmpty then ("//" : Text) ++ host ++ lowerDrive path
  else if isDrivePath path then (lowerDrive path).drop 1
  else path

theorem ofPath_eq (p : Path) : ofPath p = do
    let (host, path) ← splitHost p.text
    let written ← writtenPath (slashed path)
    let host ← escape host
    return ("file://" : Text) ++ host ++ written := by
  unfold ofPath
  congr 1
  funext ⟨host, path⟩
  dsimp only
  rw [← slashed, writtenPath]
  split
  · cases escape ((slashed path).drop 3) <;> rfl
  · rfl

/-- A host has no slash, and a path behind it has one. -/
theorem splitHost_spec {t host path : Text} (h : splitHost t = .ok (host, path)) :
    .scalar '/' ∉ host ∧ (path = t ∨
      t = ("//" : Text) ++ host ++ path ∧ ∃ rest, path = .scalar '/' :: rest) := by
  unfold splitHost at h
  split at h
  · rename_i rest
    split at h
    · cases h
    · rename_i hpath
      obtain ⟨rfl, rfl⟩ := Prod.mk.inj (Except.ok.inj h)
      refine ⟨fun hslash => ?_, .inr ⟨?_, ?_⟩⟩
      · have := List.mem_takeWhile_imp hslash
        simp [Path.isSlash] at this
      · rw [List.append_assoc, List.takeWhile_append_dropWhile]
        rfl
      · cases hdrop : rest.dropWhile (!Path.isSlash ·) with
        | nil => exact absurd hdrop hpath
        | cons u path =>
          have hu := List.head?_dropWhile_not (!Path.isSlash ·) rest
          rw [hdrop] at hu
          have hu : u = .scalar '/' := by simpa [Path.isSlash] using hu
          exact ⟨path, by rw [hu]⟩
  · obtain ⟨rfl, rfl⟩ := Prod.mk.inj (Except.ok.inj h)
    exact ⟨List.not_mem_nil, .inl rfl⟩

/-- A drive letter in lower case stays as it is. -/
theorem lowerDrive_of_isDrivePath {path : Text} (h : isDrivePath path = true) :
    isDrivePath (lowerDrive path) = true ∧
      Text.lower (((lowerDrive path).drop 1).take 1) ++ (lowerDrive path).drop 2
        = (lowerDrive path).drop 1 := by
  obtain ⟨c, rest, rfl, hc⟩ := isDrivePath_cases h
  obtain ⟨d, hd, hlower, halpha, -⟩ := lower_letter hc
  have hdrive : lowerDrive (.scalar '/' :: .scalar c :: .scalar ':' :: rest)
      = .scalar '/' :: .scalar d :: .scalar ':' :: rest := by
    rw [lowerDrive, if_pos h]
    dsimp only [List.drop, List.take]
    rw [hd]
    rfl
  rw [hdrive]
  dsimp only [List.drop, List.take]
  rw [hlower]
  exact ⟨halpha, rfl⟩

theorem ne_nil_lowerDrive {path : Text} (h : path ≠ []) : lowerDrive path ≠ [] := by
  unfold lowerDrive
  split
  · cases path with
    | nil => exact absurd rfl h
    | cons u path => simp
  · exact h

theorem isIgnored_of_notMem {u : TextUnit} (h : u ∉ delimiters) : isIgnored u = false := by
  simp only [delimiters, List.mem_cons, List.not_mem_nil, or_false, not_or] at h
  simp [isIgnored, h]

/-- What is read from the URI of a path. -/
theorem pathText_of_ofPath {p : Path} {uri : Text} (h : ofPath p = .ok uri) :
    ∃ host path, splitHost p.text = .ok (host, path) ∧
      pathText uri = .ok (readBack host (slashed path)) := by
  rw [ofPath_eq] at h
  obtain ⟨⟨host, path⟩, hsplit, h⟩ := bind_eq_ok h
  obtain ⟨written, hwritten, h⟩ := bind_eq_ok h
  obtain ⟨host', hhost, h⟩ := bind_eq_ok h
  obtain rfl := Except.ok.inj h
  refine ⟨host, path, hsplit, ?_⟩
  obtain ⟨rest, hrest⟩ := exists_slashed path
  rw [hrest] at hwritten ⊢
  obtain ⟨⟨written, rfl⟩, hdelimiters, hunescape⟩ := writtenPath_spec hwritten
  have hclean : ∀ u ∈ ("//" : Text) ++ host' ++ .scalar '/' :: written, (!isIgnored u) = true := by
    intro u hu
    rcases List.mem_append.mp hu with hu | hu
    · rcases List.mem_append.mp hu with hu | hu
      · have hslashes : ∀ u ∈ ("//" : Text), (!isIgnored u) = true := by decide
        exact hslashes u hu
      · rw [isIgnored_of_notMem (mem_escape hhost hu).2]
        rfl
    · rw [isIgnored_of_notMem (hdelimiters u hu)]
      rfl
  have hdrop : (("file://" : Text) ++ host' ++ .scalar '/' :: written).drop scheme.length
      = ("//" : Text) ++ host' ++ .scalar '/' :: written := rfl
  have hcut := hostAndPath_append (fun u hu => mem_escape hhost hu)
    (slash_notMem_escape hhost (splitHost_spec hsplit).1)
    fun u hu => hdelimiters u (List.mem_cons_of_mem _ hu)
  rw [pathText, hdrop, List.filter_eq_self.mpr hclean, hcut]
  change (if !(unescape host').isEmpty && !(unescape _).isEmpty then _ else _) = _
  have hpath : (lowerDrive (.scalar '/' :: rest)).isEmpty = false :=
    List.isEmpty_eq_false_iff.mpr (ne_nil_lowerDrive (List.cons_ne_nil _ _))
  rw [unescape_escape hhost, hunescape, readBack, hpath, Bool.not_false, Bool.and_true]
  -- Behind a host all of the path is kept; without one the slash before a drive letter goes.
  split
  · rfl
  · by_cases hdrive : isDrivePath (.scalar '/' :: rest) = true
    · obtain ⟨hlowered, hlower⟩ := lowerDrive_of_isDrivePath hdrive
      rw [if_pos hlowered, if_pos hdrive, hlower]
    · rw [lowerDrive, if_neg hdrive, if_neg hdrive, if_neg hdrive]

/-! ## Endings of URIs -/

/-- What is read back ends like the path, up to a slash or a colon. -/
theorem suffix_readBack {host path ending : Text} (h : ending <:+ path)
    (hcolon : .scalar ':' ∉ ending) : ending <:+ readBack host path := by
  have hlowered : ending <:+ lowerDrive path ∧
      (isDrivePath path = true → ending <:+ (lowerDrive path).drop 1) := by
    unfold lowerDrive
    split
    · rename_i hdrive
      obtain ⟨c, rest, rfl, -⟩ := isDrivePath_cases hdrive
      have hrest : ending <:+ .scalar ':' :: rest :=
        (Text.suffix_of_notMem [.scalar '/', .scalar c] h hcolon).trans (List.suffix_cons _ rest)
      exact ⟨hrest.trans (List.suffix_append _ _),
        fun _ => hrest.trans (List.suffix_append (Text.lower [.scalar c]) _)⟩
    · rename_i hdrive
      exact ⟨h, fun hdrive' => absurd hdrive' hdrive⟩
  unfold readBack
  split
  · exact hlowered.1.trans (List.suffix_append _ _)
  · split
    · rename_i hdrive
      exact hlowered.2 hdrive
    · exact h

/-- An ending of a path's name is one of what is read back from its URI. -/
theorem suffix_name_of_suffix {p : Path} {uri ending : Text} (h : ofPath p = .ok uri)
    (hending : ending <:+ p.name) (hslash : .scalar '/' ∉ ending) (hcolon : .scalar ':' ∉ ending)
    (hlength : 2 ≤ ending.length) :
    ∃ q, toPath? uri = .ok (some q) ∧ ending <:+ q.name := by
  have hscheme := hasScheme_of_ofPath h
  obtain ⟨host, path, hsplit, hread⟩ := pathText_of_ofPath h
  have htext : ending <:+ p.text := hending.trans p.suffix_text
  have hpath : ending <:+ path := by
    rcases (splitHost_spec hsplit).2 with rfl | ⟨hp, rest, rfl⟩
    · exact htext
    · rw [hp] at htext
      exact (Text.suffix_of_notMem _ htext hslash).trans (List.suffix_cons _ rest)
  have hback : ending <:+ readBack host (slashed path) :=
    suffix_readBack (hpath.trans (suffix_slashed path)) hcolon
  generalize readBack host (slashed path) = t at hread hback
  have hne : t.isEmpty = false := by
    rw [List.isEmpty_eq_false_iff]
    rintro rfl
    rw [List.suffix_nil.mp hback] at hlength
    exact absurd hlength (by decide)
  refine ⟨Path.ofText t, ?_, Path.suffix_name_ofText hback hslash hlength⟩
  rw [toPath?, if_pos (List.isPrefixOf_iff_prefix.mpr hscheme), hread]
  change Except.ok (if t.isEmpty then none else some (Path.ofText t)) = _
  rw [hne, if_neg Bool.false_ne_true]

/-- A unit that is its own lower-case form comes from no other text than what it is in. -/
theorem notMem_of_flatMap_lower {back ending : Text} {u : TextUnit}
    (h : back.flatMap TextUnit.lower = ending) (hu : u.lower = [u]) (hending : u ∉ ending) :
    u ∉ back := by
  intro hback
  rw [← h] at hending
  exact hending (List.mem_flatMap.mpr ⟨u, hback, hu ▸ List.mem_singleton_self u⟩)

/-- The name of a path ends, but for case, as the name that is read back from its URI. -/
theorem suffix_name_of_ofPath {p : Path} {uri ending : Text} (h : ofPath p = .ok uri)
    (hsteady : ∀ v ∈ ending, v ∉ Text.unsteady) (hending : ending <:+ p.name.lower)
    (hslash : .scalar '/' ∉ ending) (hcolon : .scalar ':' ∉ ending) (hlength : 3 ≤ ending.length) :
    ∃ q, toPath? uri = .ok (some q) ∧ ending <:+ q.name.lower := by
  obtain ⟨back, hback, hlower⟩ := (Text.suffix_lower_iff hsteady).mp hending
  have hlong : 2 ≤ back.length := by
    have hdouble := Text.length_flatMap_lower_le back
    rw [hlower] at hdouble
    omega
  obtain ⟨q, hq, hname⟩ := suffix_name_of_suffix h hback
    (notMem_of_flatMap_lower hlower (by decide +kernel) hslash)
    (notMem_of_flatMap_lower hlower (by decide +kernel) hcolon) hlong
  exact ⟨q, hq, (Text.suffix_lower_iff hsteady).mpr ⟨back, hname, hlower⟩⟩

end FileUri

end SfcProxy
