import SfcProxy.Text.Utf8

/-!
# Octets

The tools that the proxy runs know no characters, only bytes. So that scripts can be compared with
letters all the same, their bytes are written as the characters with the same numbers.

## Main definitions

* `Octets`: bytes as characters below 256
* `Octets.ofBytes`, `Octets.bytes`: the two views
* `Octets.ofText`, `Octets.text`: as text, bytes that are no UTF-8 standing for surrogates
* `Octets.lines`: the lines of a content
-/

namespace SfcProxy

/-- Bytes, each written as the character with its number. -/
abbrev Octets := List Char

namespace Octets

scoped instance : Coe String Octets := ⟨String.toList⟩

/-- Bytes as octets. -/
def ofBytes (bytes : List UInt8) : Octets :=
  bytes.map fun b => Char.ofNat b.toNat

/-- Octets as bytes. -/
def bytes (s : Octets) : List UInt8 :=
  s.map fun c => UInt8.ofNat c.toNat

/-- The octets of a string. -/
def ofString (s : String) : Octets :=
  ofBytes (Utf8.ofString s)

/-- The decimal digits of a number. -/
def ofNat (n : Nat) : Octets :=
  Nat.toDigits 10 n

/-- The decimal digits of an integer. -/
def ofInt (n : Int) : Octets :=
  if n < 0 then '-' :: ofNat n.natAbs else ofNat n.natAbs

/-! ## Text -/

/-- The bytes of a unit; a surrogate that stands for a byte gives that byte. -/
def unitBytes : TextUnit → List UInt8
  | .scalar c => Utf8.encodeChar c
  | .surrogate i => [UInt8.ofNat i.val]

/-- The octets of a text. -/
def ofText (t : Text) : Octets :=
  ofBytes (t.flatMap unitBytes)

/-- The text of bytes; `read` holds the units so far, last first. -/
def textFrom (read : Text) : List UInt8 → Text
  | [] => read.reverse
  | b :: bytes =>
    match Utf8.next b bytes with
    | .char c size => textFrom (.scalar c :: read) (bytes.drop (size - 1))
    | .bad _ _ => textFrom (TextUnit.ofCodePoint (0xDC00 + b.toNat) :: read) bytes
termination_by bytes => bytes.length
decreasing_by
  all_goals
    simp only [List.length_drop, List.length_cons]
    omega

/-- The text of octets; a byte that is no UTF-8 becomes a surrogate. -/
def text (s : Octets) : Text :=
  textFrom [] s.bytes

/-! ## Lines -/

/-- Cuts octets at each one that satisfies a test; `piece` holds the current piece, last first. -/
def splitFrom (cut : Char → Bool) (piece : Octets) : Octets → List Octets
  | [] => [piece.reverse]
  | c :: rest =>
    if cut c then piece.reverse :: splitFrom cut [] rest else splitFrom cut (c :: piece) rest

/-- The pieces between the octets that satisfy a test. -/
def split (cut : Char → Bool) (s : Octets) : List Octets :=
  splitFrom cut [] s

/-- The lines of a content without their breaks; the last one may lack its break. -/
def lines (s : Octets) : List Octets :=
  let pieces := s.split (· == '\n')
  if pieces.getLast? = some [] then pieces.dropLast else pieces

/-- The content ends in the middle of a line. -/
def endsInLine (s : Octets) : Bool :=
  s.getLast?.any (· != '\n')

/-- Lines as a content, each with its break. -/
def unlines (lines : List Octets) : Octets :=
  lines.flatMap (· ++ ['\n'])

/-! ## Numbers -/

/-- The value of digits in a base. -/
def digitsValue (base : Nat) (digits : Octets) : Nat :=
  digits.foldl (fun n c =>
    n * base + if c.isDigit then c.toNat - '0'.toNat else c.toLower.toNat - 'a'.toNat + 10) 0

/-- The number that octets write in decimal. -/
def toNat? (s : Octets) : Option Nat :=
  if s.isEmpty || s.any (!·.isDigit) then none else some (digitsValue 10 s)

end Octets

end SfcProxy
