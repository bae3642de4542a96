import SfcProxy.Double.Shortest
import SfcProxy.Json.Basic
import SfcProxy.Text.Utf8

/-!
# Writing JSON

The compact form of a value: no blanks, members in order, every character as it is but for
quotes, backslashes and controls. Writing fails on an integer of more than 4300 digits and on a
surrogate that stands alone.

## Main definitions

* `Json.print`: the compact text of a value
* `Json.encode`: its bytes, or why there are none
-/

namespace SfcProxy.Json

/-- A character as it is written inside a string. -/
def escapeChar (c : Char) : List Char :=
  match c with
  | '"' => ['\\', '"']
  | '\\' => ['\\', '\\']
  | '\n' => ['\\', 'n']
  | '\r' => ['\\', 'r']
  | '\t' => ['\\', 't']
  | '\x0c' => ['\\', 'f']
  | '\x08' => ['\\', 'b']
  | _ =>
    if c.toNat < 0x20 then
      ['\\', 'u', '0', '0', Nat.digitChar (c.toNat / 16), Nat.digitChar (c.toNat % 16)]
    else [c]

/-- A unit as it is written inside a string. -/
def escapeUnit : TextUnit → Text
  | .scalar c => Text.ofChars (escapeChar c)
  | u => [u]

/-- A string with its quotes. -/
def printString (s : Text) : Text :=
  .scalar '"' :: (s.flatMap escapeUnit ++ [.scalar '"'])

/-- The spellings of the numbers that have no digits. -/
def specials : Double.Specials where
  infinity := "Infinity"
  minusInfinity := "-Infinity"
  notANumber := "NaN"

mutual

/-- The compact text of a value. -/
def print : Json → Text
  | null => "null"
  | bool true => "true"
  | bool false => "false"
  | int n => Text.decimal n
  | real x => Text.ofChars (x.text specials)
  | str s => printString s
  | arr items =>
    .scalar '[' :: (Text.join [.scalar ','] (printItems items) ++ [.scalar ']'])
  | obj members =>
    .scalar '\x7b' :: (Text.join [.scalar ','] (printMembers members) ++ [.scalar '\x7d'])

/-- The compact texts of the items of an array. -/
def printItems : List Json → List Text
  | [] => []
  | v :: rest => print v :: printItems rest

/-- The compact texts of the members of an object. -/
def printMembers : List (Text × Json) → List Text
  | [] => []
  | (name, v) :: rest => (printString name ++ .scalar ':' :: print v) :: printMembers rest

end

mutual

/-- Some integer in a value has more digits than can be written. -/
def oversized : Json → Bool
  | int n => Nat.pow 10 4300 ≤ n.natAbs
  | arr items => oversizedItems items
  | obj members => oversizedMembers members
  | _ => false

/-- Some integer in a list of values has more digits than can be written. -/
def oversizedItems : List Json → Bool
  | [] => false
  | v :: rest => oversized v || oversizedItems rest

/-- Some integer in the members of an object has more digits than can be written. -/
def oversizedMembers : List (Text × Json) → Bool
  | [] => false
  | (_, v) :: rest => oversized v || oversizedMembers rest

end

/-- Why a value has no written form. -/
inductive WriteError where
  | digits
  | surrogates (error : Utf8.EncodeError)
  deriving DecidableEq

/-- The wording of an error. -/
def WriteError.message : WriteError → Text
  | digits =>
    ("Exceeds the limit (4300 digits) for integer string conversion; " : Text)
      ++ ("use sys.set_int_max_str_digits() to increase the limit" : Text)
  | surrogates error => error.message

/-- The bytes of the compact text of a value. -/
def encode (v : Json) : Except WriteError (List UInt8) :=
  if v.oversized then .error .digits
  else
    match Utf8.encode v.print with
    | .ok bytes => .ok bytes
    | .error e => .error (.surrogates e)

end SfcProxy.Json
