import SfcProxy.Json.Basic

/-!
# Reading JSON

A reader over characters. Besides the standard grammar it takes `NaN`, `Infinity` and
`-Infinity`; a repeated member name keeps its first place and its last value; a surrogate escape
without its partner stays as it is. Integers have at most 4300 digits. How deep arrays and objects
may nest is up to the caller, who knows how many calls the system has room for.

Every step returns what it leaves unread, so a fault is located by the rest that starts at it.

## Main definitions

* `Json.ReadError`: why a text is not a JSON document, with `Json.ReadError.message`
* `Json.string`, `Json.numeral`, `Json.value`: the reader of each kind of value
* `Json.read`: the value of a whole text
-/

namespace SfcProxy.Json

/-! ## Errors -/

/-- What the grammar misses at a place. -/
inductive Fault where
  | value
  | name
  | colon
  | comma
  | closingQuote
  | control
  | escape
  | unicodeEscape
  | extraData
  | byteOrderMark
  deriving DecidableEq

/-- The wording of a fault. -/
def Fault.message : Fault → Text
  | value => "Expecting value"
  | name => "Expecting property name enclosed in double quotes"
  | colon => "Expecting ':' delimiter"
  | comma => "Expecting ',' delimiter"
  | closingQuote => "Unterminated string starting at"
  | control => "Invalid control character at"
  | escape => "Invalid \\escape"
  | unicodeEscape => "Invalid \\uXXXX escape"
  | extraData => "Extra data"
  | byteOrderMark => "Unexpected UTF-8 BOM (decode using utf-8-sig)"

/-- The two kinds of values that nest. -/
inductive Container where
  | array
  | object
  deriving DecidableEq

/-- Why reading stops. A grammar fault is located by `rest`, the text from its place on. -/
inductive Failure where
  | malformed (fault : Fault) (rest : List Char)
  | digits (count : Nat)
  | nesting (kind : Container)
  deriving DecidableEq

/-- Why a text is not a JSON document. A grammar fault stands in front of the character with
index `offset`, which is `column` of `line`, both counted from one. -/
inductive ReadError where
  | malformed (fault : Fault) (line column offset : Nat)
  | digits (count : Nat)
  | nesting (kind : Container)
  deriving DecidableEq

/-- The greatest number of digits of an integer. -/
def digitLimit : Nat := 4300

/-- The usual limit on the depth of nested arrays and objects. -/
def nestingLimit : Nat := 989

/-- The wording of an error. -/
def ReadError.message : ReadError → Text
  | malformed fault line column offset =>
    fault.message ++ (": line " : Text) ++ Text.ofNat line ++ (" column " : Text)
      ++ Text.ofNat column ++ (" (char " : Text) ++ Text.ofNat offset ++ (")" : Text)
  | digits count =>
    ("Exceeds the limit (4300 digits) for integer string conversion: value has " : Text)
      ++ Text.ofNat count
      ++ (" digits; use sys.set_int_max_str_digits() to increase the limit" : Text)
  | nesting .array =>
    "maximum recursion depth exceeded while decoding a JSON array from a unicode string"
  | nesting .object =>
    "maximum recursion depth exceeded while decoding a JSON object from a unicode string"

/-- The error of a failure that stopped the reading of `source`. -/
def Failure.locate (source : List Char) : Failure → ReadError
  | malformed fault rest =>
    let before := source.take (source.length - rest.length)
    let column := (before.reverse.takeWhile (· ≠ '\n')).length + 1
    .malformed fault (before.count '\n' + 1) column before.length
  | digits count => .digits count
  | nesting kind => .nesting kind

/-- A step of reading: a result and the text that is left. -/
abbrev Reader (α : Type) := List Char → Except Failure (α × List Char)

/-! ## Strings -/

/-- The four blank characters. -/
def isBlank (c : Char) : Bool :=
  c = ' ' || c = '\t' || c = '\n' || c = '\r'

/-- The text without leading blanks. -/
def skipBlank (cs : List Char) : List Char :=
  cs.dropWhile isBlank

/-- The value of a hexadecimal digit. -/
def hexDigit? (c : Char) : Option Nat :=
  if '0' ≤ c ∧ c ≤ '9' then some (c.toNat - '0'.toNat)
  else if 'a' ≤ c ∧ c ≤ 'f' then some (c.toNat - 'a'.toNat + 10)
  else if 'A' ≤ c ∧ c ≤ 'F' then some (c.toNat - 'A'.toNat + 10)
  else none

/-- The value of four hexadecimal digits. -/
def hex4? (a b c d : Char) : Option Nat := do
  let a ← hexDigit? a
  let b ← hexDigit? b
  let c ← hexDigit? c
  let d ← hexDigit? d
  return ((a * 16 + b) * 16 + c) * 16 + d

/-- The character that a one-letter escape stands for. -/
def escaped? : Char → Option Char
  | '"' => some '"'
  | '\\' => some '\\'
  | '/' => some '/'
  | 'b' => some '\x08'
  | 'f' => some '\x0c'
  | 'n' => some '\n'
  | 'r' => some '\r'
  | 't' => some '\t'
  | _ => none

/-- A leading surrogate. -/
def isHigh (n : Nat) : Bool :=
  0xD800 ≤ n && n < 0xDC00

/-- A trailing surrogate. -/
def isLow (n : Nat) : Bool :=
  0xDC00 ≤ n && n < 0xE000

/-- The character of a pair of surrogates. -/
def pair (high low : Nat) : Char :=
  Char.ofNat (0x10000 + (high - 0xD800) * 0x400 + (low - 0xDC00))

/-- The trailing surrogate whose escape stands at the front of a text and is not its end. -/
def lowEscape? : List Char → Option Nat
  | '\\' :: 'u' :: a :: b :: c :: d :: _ :: _ => (hex4? a b c d).filter isLow
  | _ => none

/-- The body of a string up to its closing quote. `start` begins at the opening quote, and `read`
holds the units so far, last first. A unicode escape has to be followed by a further character. -/
def stringFrom (start : List Char) (read : Text) : Reader Text
  | [] => .error (.malformed .closingQuote start)
  | '"' :: rest => .ok (read.reverse, rest)
  | ['\\'] => .error (.malformed .closingQuote start)
  | '\\' :: 'u' :: a :: b :: c :: d :: after :: rest =>
    match hex4? a b c d with
    | none => .error (.malformed .unicodeEscape ('u' :: a :: b :: c :: d :: after :: rest))
    | some n =>
      match lowEscape? (after :: rest) with
      | some m =>
        if isHigh n then stringFrom start (.scalar (pair n m) :: read) (rest.drop 5)
        else stringFrom start (.ofCodePoint n :: read) (after :: rest)
      | none => stringFrom start (.ofCodePoint n :: read) (after :: rest)
  | '\\' :: 'u' :: rest => .error (.malformed .unicodeEscape ('u' :: rest))
  | '\\' :: c :: rest =>
    match escaped? c with
    | some e => stringFrom start (.scalar e :: read) rest
    | none => .error (.malformed .escape ('\\' :: c :: rest))
  | c :: rest =>
    if c.toNat < 0x20 then .error (.malformed .control (c :: rest))
    else stringFrom start (.scalar c :: read) rest
termination_by cs => cs.length
decreasing_by
  all_goals
    simp only [List.length_drop, List.length_cons]
    omega

/-- A string, from behind its opening quote. -/
def string : Reader Text := fun cs =>
  stringFrom ('"' :: cs) [] cs

/-! ## Numbers -/

/-- A decimal digit. -/
def isDigit (c : Char) : Bool :=
  '0' ≤ c && c ≤ '9'

/-- The number that decimal digits stand for. -/
def ofDigits (digits : List Char) : Nat :=
  digits.foldl (fun n c => n * 10 + (c.toNat - '0'.toNat)) 0

/-- A number as it is written. -/
structure Numeral where
  negative : Bool
  whole : List Char
  fraction : List Char
  exponent : Option Int
  deriving DecidableEq

/-- The digits before the point: a single zero, or digits that do not start with one. -/
def whole? : List Char → Option (List Char × List Char)
  | '0' :: rest => some (['0'], rest)
  | c :: rest => if isDigit c then some ((c :: rest).span isDigit) else none
  | [] => none

/-- A point followed by digits, if they are there. -/
def fraction : List Char → List Char × List Char
  | '.' :: rest =>
    match rest.span isDigit with
    | ([], _) => ([], '.' :: rest)
    | (digits, rest) => (digits, rest)
  | cs => ([], cs)

/-- The signed digits of an exponent, if they are there. -/
def signedDigits? (cs : List Char) : Option (Int × List Char) :=
  let (negative, rest) := match cs with
    | '-' :: rest => (true, rest)
    | '+' :: rest => (false, rest)
    | rest => (false, rest)
  match rest.span isDigit with
  | ([], _) => none
  | (digits, rest) => some (if negative then -(ofDigits digits : Int) else ofDigits digits, rest)

/-- An exponent, if it is there. -/
def exponent (cs : List Char) : Option Int × List Char :=
  match cs with
  | 'e' :: rest | 'E' :: rest =>
    match signedDigits? rest with
    | some (n, rest) => (some n, rest)
    | none => (none, cs)
  | _ => (none, cs)

/-- The longest number at the front of a text. -/
def numeral? (cs : List Char) : Option (Numeral × List Char) := do
  let (negative, cs) := match cs with
    | '-' :: rest => (true, rest)
    | rest => (false, rest)
  let (whole, cs) ← whole? cs
  let (fraction, cs) := fraction cs
  let (exponent, cs) := exponent cs
  return (⟨negative, whole, fraction, exponent⟩, cs)

/-- The value of a number: an integer unless it has a fraction or an exponent. -/
def Numeral.value (n : Numeral) : Except Failure Json :=
  if n.fraction.isEmpty && n.exponent.isNone then
    if n.whole.length > digitLimit then .error (.digits n.whole.length)
    else .ok (.int (if n.negative then -(ofDigits n.whole : Int) else ofDigits n.whole))
  else
    let digits := n.whole ++ n.fraction
    .ok (.real (.ofDecimal n.negative (ofDigits digits) digits.length
      (n.exponent.getD 0 - n.fraction.length)))

/-! ## Values -/

/-- A value that does not nest. -/
def scalar : Reader Json
  | '"' :: rest => do
    let (s, rest) ← string rest
    return (.str s, rest)
  | 'n' :: 'u' :: 'l' :: 'l' :: rest => .ok (.null, rest)
  | 't' :: 'r' :: 'u' :: 'e' :: rest => .ok (.bool true, rest)
  | 'f' :: 'a' :: 'l' :: 's' :: 'e' :: rest => .ok (.bool false, rest)
  | 'N' :: 'a' :: 'N' :: rest => .ok (.real .nan, rest)
  | 'I' :: 'n' :: 'f' :: 'i' :: 'n' :: 'i' :: 't' :: 'y' :: rest =>
    .ok (.real (.infinite false), rest)
  | '-' :: 'I' :: 'n' :: 'f' :: 'i' :: 'n' :: 'i' :: 't' :: 'y' :: rest =>
    .ok (.real (.infinite true), rest)
  | cs =>
    match numeral? cs with
    | none => .error (.malformed .value cs)
    | some (n, rest) => do return (← n.value, rest)

/-- The items of an array from the first one to the closing bracket, at most `budget` of them;
`read` holds the items so far, last first. -/
def items (item : Reader Json) : (budget : Nat) → (read : List Json) → Reader (List Json)
  | 0, _, cs => .error (.malformed .value cs)
  | budget + 1, read, cs => do
    let (v, rest) ← item cs
    match skipBlank rest with
    | ']' :: rest => return ((v :: read).reverse, rest)
    | ',' :: rest => items item budget (v :: read) (skipBlank rest)
    | rest => .error (.malformed .comma rest)

/-- An array, from behind its opening bracket. -/
def array (item : Reader Json) : Reader Json := fun cs =>
  match skipBlank cs with
  | ']' :: rest => .ok (.arr [], rest)
  | rest => do
    let (vs, rest) ← items item rest.length [] rest
    return (.arr vs, rest)

/-- The name of a member and the colon behind it. -/
def memberName : Reader Text
  | '"' :: rest => do
    let (name, rest) ← string rest
    match skipBlank rest with
    | ':' :: rest => return (name, skipBlank rest)
    | rest => .error (.malformed .colon rest)
  | cs => .error (.malformed .name cs)

/-- The members of an object from the first one to the closing brace, at most `budget` of them;
`read` holds the members so far. -/
def members (item : Reader Json) : (budget : Nat) → (read : Members) → Reader Members
  | 0, _, cs => .error (.malformed .name cs)
  | budget + 1, read, cs => do
    let (name, rest) ← memberName cs
    let (v, rest) ← item rest
    match skipBlank rest with
    | '}' :: rest => return (set name v read, rest)
    | ',' :: rest => members item budget (set name v read) (skipBlank rest)
    | rest => .error (.malformed .comma rest)

/-- An object, from behind its opening brace. -/
def object (item : Reader Json) : Reader Json := fun cs =>
  match skipBlank cs with
  | '}' :: rest => .ok (.obj [], rest)
  | rest => do
    let (ms, rest) ← members item rest.length [] rest
    return (.obj ms, rest)

/-- A value whose arrays and objects nest at most `depth` deep. -/
def value : (depth : Nat) → Reader Json
  | 0 => fun
    | '[' :: _ => .error (.nesting .array)
    | '\x7b' :: _ => .error (.nesting .object)
    | cs => scalar cs
  | depth + 1 => fun
    | '[' :: rest => array (value depth) rest
    | '\x7b' :: rest => object (value depth) rest
    | cs => scalar cs

/-- The value of a whole text, in which arrays and objects nest at most `limit` deep. -/
def read (source : List Char) (limit : Nat := nestingLimit) : Except ReadError Json :=
  let outcome : Except Failure Json :=
    match source with
    | '\uFEFF' :: _ => .error (.malformed .byteOrderMark source)
    | _ =>
      match value limit (skipBlank source) with
      | .error e => .error e
      | .ok (v, rest) =>
        match skipBlank rest with
        | [] => .ok v
        | rest => .error (.malformed .extraData rest)
  match outcome with
  | .ok v => .ok v
  | .error e => .error (e.locate source)

end SfcProxy.Json
