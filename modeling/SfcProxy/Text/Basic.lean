/-!
# Text

Text as messages carry it. A JSON string may spell a surrogate without its partner, and file
names and URIs come out of such strings, so a text is a list of units that are either Unicode
scalar values or surrogates standing alone. A text without the latter is a list of characters.

## Main definitions

* `TextUnit`, `Text`: a code point of a message, and a sequence of them
* `Text.ofString`, `Text.chars?`: characters as text, and text as characters where possible
* `Text.le`: the order by code points
* `Text.decimal`: the decimal digits of an integer
* `Text.replaceFirst`: replacing the first occurrence of a text
-/

namespace SfcProxy

/-- One unit of text: a Unicode scalar value, or the surrogate `0xD800 + index`. -/
inductive TextUnit where
  | scalar (c : Char)
  | surrogate (index : Fin 2048)
  deriving DecidableEq

namespace TextUnit

/-- The code point of a unit. -/
def codePoint : TextUnit → Nat
  | scalar c => c.toNat
  | surrogate i => 0xD800 + i.val

/-- The unit is a surrogate. -/
def isSurrogate : TextUnit → Bool
  | scalar _ => false
  | surrogate _ => true

/-- The unit with a code point below `0x110000`; larger numbers give U+0000. -/
def ofCodePoint (n : Nat) : TextUnit :=
  if h : 0xD800 ≤ n ∧ n < 0xE000 then surrogate ⟨n - 0xD800, by omega⟩ else scalar (Char.ofNat n)

end TextUnit

/-- A sequence of code points, surrogates allowed. -/
abbrev Text := List TextUnit

namespace Text

/-- Characters as text. -/
def ofChars (cs : List Char) : Text :=
  cs.map .scalar

/-- A string as text. -/
def ofString (s : String) : Text :=
  ofChars s.toList

instance : Coe String Text := ⟨ofString⟩

/-- The characters of a text without surrogates. -/
def chars? (t : Text) : Option (List Char) :=
  t.mapM fun
    | .scalar c => some c
    | .surrogate _ => none

/-- The code points of a text. -/
def codePoints (t : Text) : List Nat :=
  t.map TextUnit.codePoint

/-- Comparison of two lists of numbers by the first place where they differ. -/
def leNats : List Nat → List Nat → Bool
  | [], _ => true
  | _ :: _, [] => false
  | a :: as, b :: bs => a < b || (a == b && leNats as bs)

/-- The order of texts by code points. -/
def le (s t : Text) : Bool :=
  leNats s.codePoints t.codePoints

/-- The decimal digits of a natural number. -/
def ofNat (n : Nat) : Text :=
  ofChars (Nat.toDigits 10 n)

/-- The decimal digits of an integer, behind a minus sign when it is negative. -/
def decimal (n : Int) : Text :=
  if n < 0 then .scalar '-' :: ofNat n.natAbs else ofNat n.natAbs

/-- The lower-case hexadecimal digits of a number, padded with zeros to a width. -/
def hex (width n : Nat) : Text :=
  let digits := Nat.toDigits 16 n
  ofChars (List.replicate (width - digits.length) '0' ++ digits)

/-- Texts put together with a separator between neighbours. -/
def join (separator : Text) (parts : List Text) : Text :=
  List.intercalate separator parts

/-- Cuts a text around the first occurrence of another, if there is one. -/
def splitAround? (sought : Text) : Text → Option (Text × Text)
  | [] => if sought.isEmpty then some ([], []) else none
  | u :: rest =>
    if sought.isPrefixOf (u :: rest) then some ([], (u :: rest).drop sought.length)
    else (splitAround? sought rest).map fun (before, after) => (u :: before, after)

/-- One text occurs in another. -/
def includes (t sought : Text) : Bool :=
  (splitAround? sought t).isSome

/-- Replaces the first occurrence of a text; without one nothing changes. -/
def replaceFirst (t sought replacement : Text) : Text :=
  match splitAround? sought t with
  | some (before, after) => before ++ replacement ++ after
  | none => t

/-- Cuts a text at each unit that satisfies a test; the pieces stand between those units. -/
def splitOn (cut : TextUnit → Bool) : Text → List Text
  | [] => [[]]
  | u :: rest =>
    if cut u then [] :: splitOn cut rest
    else match splitOn cut rest with
      | [] => [[u]]
      | piece :: pieces => (u :: piece) :: pieces

end Text

end SfcProxy
