import SfcProxy.Double.Shortest
import SfcProxy.Json.Basic
import SfcProxy.Text.Quoted

/-!
# JSON values in log messages

Log messages show values as literals: strings quoted, capitalised constants, and a blank behind
each comma and colon.

## Main definitions

* `Json.literal`: a value as a literal
* `Json.plain`: a value as a literal, but a string as it is
-/

namespace SfcProxy.Json

/-- The spellings of the numbers that have no digits. -/
def literalSpecials : Double.Specials where
  infinity := "inf"
  minusInfinity := "-inf"
  notANumber := "nan"

mutual

/-- A value as a literal. -/
def literal : Json → Text
  | null => "None"
  | bool true => "True"
  | bool false => "False"
  | int n => Text.decimal n
  | real x => Text.ofChars (x.text literalSpecials)
  | str s => s.quoted
  | arr items => ("[" : Text) ++ Text.join ", " (literalItems items) ++ ("]" : Text)
  | obj members =>
    .scalar '\x7b' :: (Text.join ", " (literalMembers members) ++ [.scalar '\x7d'])

/-- The items of an array as literals. -/
def literalItems : List Json → List Text
  | [] => []
  | v :: rest => literal v :: literalItems rest

/-- The members of an object as literals. -/
def literalMembers : List (Text × Json) → List Text
  | [] => []
  | (name, v) :: rest => (name.quoted ++ (": " : Text) ++ literal v) :: literalMembers rest

end

/-- A value as it stands in running text: strings as they are, all else as a literal. -/
def plain : Json → Text
  | str s => s
  | v => v.literal

end SfcProxy.Json
