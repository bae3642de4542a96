import SfcProxy.Text.Basic

/-!
# UTF-8

The encoding of text as bytes and the two ways back: a strict reader that names the first
ill-formed sequence, and a lenient one that puts U+FFFD in its place. An ill-formed sequence is
as long as it could still have been completed: the bytes before the first one that does not fit.

## Main definitions

* `encodeChar`, `encodeChars`: bytes of characters
* `encode`: bytes of a text, refused at its first run of surrogates
* `next`: the first character of a byte sequence, or the ill-formed sequence that stands there
* `decode`, `decodeLossy`: the strict and the lenient reader
-/

namespace SfcProxy.Utf8

/-! ## Encoding -/

/-- The one to four bytes of a character. -/
def encodeChar (c : Char) : List UInt8 :=
  let n := c.toNat
  if n < 0x80 then [UInt8.ofNat n]
  else if n < 0x800 then [UInt8.ofNat (0xC0 + n / 64), UInt8.ofNat (0x80 + n % 64)]
  else if n < 0x10000 then
    [UInt8.ofNat (0xE0 + n / 4096), UInt8.ofNat (0x80 + n / 64 % 64), UInt8.ofNat (0x80 + n % 64)]
  else
    [UInt8.ofNat (0xF0 + n / 262144), UInt8.ofNat (0x80 + n / 4096 % 64),
      UInt8.ofNat (0x80 + n / 64 % 64), UInt8.ofNat (0x80 + n % 64)]

/-- The bytes of a sequence of characters. -/
def encodeChars (cs : List Char) : List UInt8 :=
  cs.flatMap encodeChar

/-- The bytes of a string. -/
def ofString (s : String) : List UInt8 :=
  encodeChars s.toList

/-- Why a text has no encoding: the run of surrogates `run` starts at unit `position`. -/
structure EncodeError where
  position : Nat
  run : Text
  deriving DecidableEq

/-- The first run of surrogates in a text. -/
def firstRun (t : Text) : EncodeError :=
  let before := t.takeWhile (!·.isSurrogate)
  ⟨before.length, (t.drop before.length).takeWhile (·.isSurrogate)⟩

/-- The bytes of a text, or its first run of surrogates. -/
def encode (t : Text) : Except EncodeError (List UInt8) :=
  match t.chars? with
  | some cs => .ok (encodeChars cs)
  | none => .error (firstRun t)

/-- The wording of an encoding error; a single surrogate is shown, a longer run only located. -/
def EncodeError.message (e : EncodeError) : Text :=
  match e.run with
  | [u] =>
    ("'utf-8' codec can't encode character '\\u" : Text) ++ Text.hex 4 u.codePoint
      ++ ("' in position " : Text) ++ Text.ofNat e.position ++ (": surrogates not allowed" : Text)
  | run =>
    ("'utf-8' codec can't encode characters in position " : Text) ++ Text.ofNat e.position
      ++ ("-" : Text) ++ Text.ofNat (e.position + run.length - 1)
      ++ (": surrogates not allowed" : Text)

/-! ## Decoding -/

/-- What is wrong with an ill-formed sequence. -/
inductive Flaw where
  | start
  | continuation
  | truncated
  deriving DecidableEq

/-- The wording of a flaw. -/
def Flaw.message : Flaw → Text
  | start => "invalid start byte"
  | continuation => "invalid continuation byte"
  | truncated => "unexpected end of data"

/-- What stands at the front of a byte sequence. -/
inductive Front where
  /-- A character and the number of its bytes. -/
  | char (c : Char) (size : Nat)
  /-- An ill-formed sequence of `size` bytes. -/
  | bad (size : Nat) (flaw : Flaw)
  deriving DecidableEq

/-- The payload of a leading byte and the ranges in which its continuation bytes have to lie. -/
def lead (b : UInt8) : Option (Nat × List (Nat × Nat)) :=
  let n := b.toNat
  if n < 0x80 then some (n, [])
  else if n < 0xC2 then none
  else if n < 0xE0 then some (n - 0xC0, [(0x80, 0xBF)])
  else if n == 0xE0 then some (0, [(0xA0, 0xBF), (0x80, 0xBF)])
  else if n == 0xED then some (0xD, [(0x80, 0x9F), (0x80, 0xBF)])
  else if n < 0xF0 then some (n - 0xE0, [(0x80, 0xBF), (0x80, 0xBF)])
  else if n == 0xF0 then some (0, [(0x90, 0xBF), (0x80, 0xBF), (0x80, 0xBF)])
  else if n < 0xF4 then some (n - 0xF0, [(0x80, 0xBF), (0x80, 0xBF), (0x80, 0xBF)])
  else if n == 0xF4 then some (4, [(0x80, 0x8F), (0x80, 0xBF), (0x80, 0xBF)])
  else none

/-- Reads continuation bytes in their ranges; `size` bytes are read already, worth `payload`. -/
def continueFrom (payload size : Nat) : List (Nat × Nat) → List UInt8 → Front
  | [], _ => .char (Char.ofNat payload) size
  | _ :: _, [] => .bad size .truncated
  | (lo, hi) :: ranges, b :: bytes =>
    if lo ≤ b.toNat ∧ b.toNat ≤ hi then
      continueFrom (payload * 64 + b.toNat % 64) (size + 1) ranges bytes
    else .bad size .continuation

/-- What stands at the front of a byte sequence that begins with `b`. -/
def next (b : UInt8) (bytes : List UInt8) : Front :=
  match lead b with
  | none => .bad 1 .start
  | some (payload, ranges) => continueFrom payload 1 ranges bytes

/-- Why bytes are not UTF-8: `size` bytes from `position` on, the first of them `first`. -/
structure DecodeError where
  position : Nat
  size : Nat
  first : UInt8
  flaw : Flaw
  deriving DecidableEq

/-- The wording of a decoding error; a single byte is shown, a longer sequence only located. -/
def DecodeError.message (e : DecodeError) : Text :=
  if e.size ≤ 1 then
    ("'utf-8' codec can't decode byte 0x" : Text) ++ Text.hex 2 e.first.toNat
      ++ (" in position " : Text) ++ Text.ofNat e.position ++ (": " : Text) ++ e.flaw.message
  else
    ("'utf-8' codec can't decode bytes in position " : Text) ++ Text.ofNat e.position
      ++ ("-" : Text) ++ Text.ofNat (e.position + e.size - 1) ++ (": " : Text) ++ e.flaw.message

/-- The strict reader from byte `position` on; `read` holds the characters so far, last first. -/
def decodeFrom (position : Nat) (read : List Char) :
    List UInt8 → Except DecodeError (List Char)
  | [] => .ok read.reverse
  | b :: bytes =>
    match next b bytes with
    | .char c size => decodeFrom (position + size) (c :: read) (bytes.drop (size - 1))
    | .bad size flaw => .error ⟨position, size, b, flaw⟩
termination_by bytes => bytes.length
decreasing_by
  simp only [List.length_drop, List.length_cons]
  omega

/-- The characters of a byte sequence, or its first ill-formed sequence. -/
def decode (bytes : List UInt8) : Except DecodeError (List Char) :=
  decodeFrom 0 [] bytes

/-- The lenient reader; `read` holds the characters so far, last first. -/
def decodeLossyFrom (read : List Char) : List UInt8 → List Char
  | [] => read.reverse
  | b :: bytes =>
    match next b bytes with
    | .char c size => decodeLossyFrom (c :: read) (bytes.drop (size - 1))
    | .bad size _ => decodeLossyFrom ('\uFFFD' :: read) (bytes.drop (size - 1))
termination_by bytes => bytes.length
decreasing_by
  all_goals
    simp only [List.length_drop, List.length_cons]
    omega

/-- The characters of a byte sequence, U+FFFD standing for each ill-formed sequence. -/
def decodeLossy (bytes : List UInt8) : List Char :=
  decodeLossyFrom [] bytes

end SfcProxy.Utf8
