import SfcProxy.Text.Basic
import SfcProxy.Text.Printable

/-!
# Quoted text

Messages show texts and bytes in quotes. The quote is single unless the text has a single quote
and no double one. The quote and the backslash are escaped, and so is all that does not print:
line breaks and tabs by a letter, other code points by their number.

## Main definitions

* `Text.quoted`: a text in quotes
* `Text.quotedBytes`: bytes in quotes, behind the letter `b`
-/

namespace SfcProxy.Text

/-- The quote around a text that has single and double quotes as stated. -/
def quoteFor (hasSingle hasDouble : Bool) : Char :=
  if hasSingle && !hasDouble then '"' else '\''

/-- The escape of a code point by its number. -/
def numericEscape (n : Nat) : Text :=
  if n < 0x100 then ("\\x" : Text) ++ hex 2 n
  else if n < 0x10000 then ("\\u" : Text) ++ hex 4 n
  else ("\\U" : Text) ++ hex 8 n

/-- The escape of a code point that is escaped inside either quote. -/
def escape? (quote : Char) (n : Nat) : Option Text :=
  if n = quote.toNat then some [.scalar '\\', .scalar quote]
  else if n = '\\'.toNat then some "\\\\"
  else if n = '\n'.toNat then some "\\n"
  else if n = '\r'.toNat then some "\\r"
  else if n = '\t'.toNat then some "\\t"
  else none

/-- A text in quotes. -/
def quoted (t : Text) : Text :=
  let quote := quoteFor (t.contains (.scalar '\'')) (t.contains (.scalar '"'))
  let body := t.flatMap fun u =>
    match escape? quote u.codePoint with
    | some e => e
    | none => if isPrintable u.codePoint then [u] else numericEscape u.codePoint
  .scalar quote :: (body ++ [.scalar quote])

/-- Bytes in quotes; a byte prints as the ASCII character it stands for. -/
def quotedBytes (bytes : List UInt8) : Text :=
  let quote := quoteFor (bytes.contains 39) (bytes.contains 34)
  let body := bytes.flatMap fun b =>
    match escape? quote b.toNat with
    | some e => e
    | none =>
      if 0x20 ≤ b.toNat && b.toNat < 0x7F then [.scalar (Char.ofNat b.toNat)]
      else numericEscape b.toNat
  .scalar 'b' :: .scalar quote :: (body ++ [.scalar quote])

end SfcProxy.Text
