import SfcProxy.Text.Basic
import SfcProxy.Text.CaseTable

/-!
# Case

A code point may have a form in the other case. In the lower-case form of a text every code point
is mapped on its own but for two: the capital I with a dot becomes two code points, and a capital
sigma takes its final form at the end of a word.

## Main definitions

* `lowerCodePoint`, `upperCodePoint`: the forms of one code point
* `TextUnit.lower`: the lower-case form of one code point
* `Text.lower`: the lower-case form of a text
-/

namespace SfcProxy

/-- The lower-case code point of a code point. -/
def lowerCodePoint (n : Nat) : Nat :=
  Text.CaseRun.map Text.lowerRuns n

/-- The upper-case code point of a code point. -/
def upperCodePoint (n : Nat) : Nat :=
  Text.CaseRun.map Text.upperRuns n

/-- The lower-case form of one unit, whatever stands around it. -/
def TextUnit.lower (u : TextUnit) : Text :=
  if u.codePoint = 0x130 then [.scalar 'i', .scalar (Char.ofNat 0x307)]
  else [.ofCodePoint (lowerCodePoint u.codePoint)]

namespace Text

/-- The nearest unit that is not passed over has case. -/
def nextIsCased (t : Text) : Bool :=
  match t.dropWhile fun u => caseIgnorable.has u.codePoint with
  | u :: _ => cased.has u.codePoint
  | [] => false

/-- The lower-case form of a text that stands behind `before`, which is given last unit first. -/
def lowerAfter (before : Text) : Text → Text
  | [] => []
  | u :: rest =>
    -- A sigma is final behind a letter and not before one.
    let lowered :=
      if u.codePoint = 0x3A3 ∧ nextIsCased before ∧ !nextIsCased rest then
        [.scalar (Char.ofNat 0x3C2)]
      else u.lower
    lowered ++ lowerAfter (u :: before) rest

/-- The lower-case form of a text. -/
def lower (t : Text) : Text :=
  lowerAfter [] t

end Text

end SfcProxy
