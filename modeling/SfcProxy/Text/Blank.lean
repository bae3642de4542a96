import SfcProxy.Text.Basic
import SfcProxy.Text.Ranges

/-!
# Blanks

The white space of Unicode together with the four separators of ASCII.
-/

namespace SfcProxy.Text

/-- The code points that count as white space. -/
def blanks : Ranges :=
  [(0x9, 0xD), (0x1C, 0x20), (0x85, 0x85), (0xA0, 0xA0), (0x1680, 0x1680), (0x2000, 0x200A),
   (0x2028, 0x2029), (0x202F, 0x202F), (0x205F, 0x205F), (0x3000, 0x3000)]

/-- A unit is white space. -/
def isBlank (u : TextUnit) : Bool :=
  blanks.has u.codePoint

/-- A text without the white space at its end. -/
def trimEnd (t : Text) : Text :=
  (t.reverse.dropWhile isBlank).reverse

end SfcProxy.Text
