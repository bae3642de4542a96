import SfcProxy.Text.Quoted
import SfcProxy.Text.Utf8

/-!
# Message frames

On a byte stream each message body stands behind header lines that give its length, and an empty
line. A reader takes one message off the front of the bytes at hand. Where these do not decide
yet, it asks for more; a stream that is closed has no more to give, and a message that it breaks
off is dropped.

## Main definitions

* `Frame.write`: a body with its header
* `Frame.read`: the first message of a stream
* `Frame.readAll`: all messages of a closed stream
-/

namespace SfcProxy.Frame

/-! ## Bytes -/

/-- The byte of the line feed, which ends every line. -/
def lineFeed : UInt8 := 10

/-- The white space of ASCII. -/
def isBlank (b : UInt8) : Bool :=
  b == 32 || (9 ≤ b && b ≤ 13)

/-- Bytes without white space at either end. -/
def trim (bytes : List UInt8) : List UInt8 :=
  ((bytes.dropWhile isBlank).reverse.dropWhile isBlank).reverse

/-- An ASCII letter in lower case; any other byte as it is. -/
def lowerByte (b : UInt8) : UInt8 :=
  if 65 ≤ b && b ≤ 90 then b + 32 else b

/-- An ASCII digit. -/
def isDigit (b : UInt8) : Bool :=
  48 ≤ b && b ≤ 57

/-! ## Lengths -/

/-- The greatest number of digits of a length. -/
def digitLimit : Nat := 4300

/-- Digits, single underscores between them allowed, behind a first digit that is counted in
`value` and `count` already. -/
def digitsFrom? (value count : Nat) : List UInt8 → Option Nat
  | [] => if count ≤ digitLimit then some value else none
  | b :: rest =>
    if isDigit b then digitsFrom? (value * 10 + (b.toNat - 48)) (count + 1) rest
    else
      match b, rest with
      | 95, c :: rest =>
        if isDigit c then digitsFrom? (value * 10 + (c.toNat - 48)) (count + 1) rest else none
      | _, _ => none

/-- The number that digits stand for, single underscores between them allowed. -/
def digits? : List UInt8 → Option Nat
  | [] => none
  | b :: rest => if isDigit b then digitsFrom? (b.toNat - 48) 1 rest else none

/-- The integer that a header value stands for: digits behind an optional sign, with white space
around them. -/
def length? (value : List UInt8) : Option Int :=
  match trim value with
  | 43 :: rest => (digits? rest).map fun n => (n : Int)
  | 45 :: rest => (digits? rest).map fun n => -(n : Int)
  | rest => (digits? rest).map fun n => (n : Int)

/-! ## Reading -/

/-- Why a stream has no further message. -/
inductive Error where
  /-- A header line without a colon. -/
  | malformedHeader (line : List UInt8)
  /-- A length that is no integer. -/
  | invalidLength (value : List UInt8)
  | negativeLength
  /-- A line that ends beyond the limit. -/
  | lineTooLong
  /-- More bytes than the limit without a line end. -/
  | lineUnended
  deriving DecidableEq

/-- The error is a breach of the framing rules, which ends a stream in good order. -/
def Error.isBreach : Error → Bool
  | malformedHeader _ | invalidLength _ => true
  | _ => false

/-- The wording of an error. -/
def Error.message : Error → Text
  | malformedHeader line => ("malformed header line: " : Text) ++ Text.quotedBytes line
  | invalidLength value => ("invalid Content-Length: " : Text) ++ Text.quotedBytes value
  | negativeLength => "readexactly size can not be less than zero"
  | lineTooLong => "Separator is found, but chunk is longer than limit"
  | lineUnended => "Separator is not found, and chunk exceed the limit"

/-- The first line of a stream, its line end included, and what follows. -/
inductive Line where
  | line (bytes rest : List UInt8)
  | failed (error : Error)
  /-- The stream may still bring the end of the line. -/
  | pending
  deriving DecidableEq

/-- The greatest number of bytes before a line end. -/
def lineLimit : Nat := 65536

/-- The first line of a stream. The last line of a closed stream needs no line end. -/
def firstLine (closed : Bool) (bytes : List UInt8) : Line :=
  let body := bytes.takeWhile (· != lineFeed)
  match bytes.drop body.length with
  | b :: rest => if body.length > lineLimit then .failed .lineTooLong else .line (body ++ [b]) rest
  | [] =>
    if body.length > lineLimit then .failed .lineUnended
    else if closed then .line body []
    else .pending

/-- The first message of a stream. -/
inductive Reading where
  | message (body rest : List UInt8)
  /-- The stream has no further message. -/
  | ended
  | failed (error : Error)
  /-- The stream may still bring the rest of the message. -/
  | pending
  deriving DecidableEq

/-- A body of the given length. -/
def readBody (closed : Bool) (length : Int) (bytes : List UInt8) : Reading :=
  if length < 0 then .failed .negativeLength
  else if bytes.length < length.toNat then (if closed then .ended else .pending)
  else .message (bytes.take length.toNat) (bytes.drop length.toNat)

/-- A line with nothing before its line end. -/
def isEmptyLine (line : List UInt8) : Bool :=
  line == [13, 10] || line == [10]

/-- The name of the header that gives the length. -/
def lengthName : List UInt8 :=
  Utf8.ofString "content-length"

/-- What one header line does to the length known so far. -/
def header (length : Option Int) (line : List UInt8) : Except Error (Option Int) :=
  let name := line.takeWhile (· != 58)
  match line.drop name.length with
  | [] => .error (.malformedHeader line)
  | _ :: value =>
    if (trim name).map lowerByte = lengthName then
      match length? value with
      | some n => .ok (some n)
      | none => .error (.invalidLength value)
    else .ok length

/-- Reads header lines and the body behind them, at most `budget` lines; `length` is the length
known so far. Empty lines before the first length are skipped. -/
def readFrom (closed : Bool) : (budget : Nat) → (length : Option Int) → List UInt8 → Reading
  | 0, _, _ => .ended
  | budget + 1, length, bytes =>
    match firstLine closed bytes with
    | .pending => .pending
    | .failed e => .failed e
    | .line [] _ => .ended
    | .line line rest =>
      if isEmptyLine line then
        match length with
        -- An empty line between messages, or headers that give no length.
        | none => readFrom closed budget none rest
        | some n => readBody closed n rest
      else
        match header length line with
        | .error e => .failed e
        | .ok length => readFrom closed budget length rest

/-- The first message of a stream. -/
def read (closed : Bool) (bytes : List UInt8) : Reading :=
  readFrom closed (bytes.length + 1) none bytes

/-- How a closed stream comes to its end. -/
inductive Ending where
  | ended
  | failed (error : Error)
  deriving DecidableEq

/-- At most `budget` messages of a closed stream, and how it ends. -/
def readAllFrom : (budget : Nat) → List UInt8 → List (List UInt8) × Ending
  | 0, _ => ([], .ended)
  | budget + 1, bytes =>
    match read true bytes with
    | .message body rest =>
      let (bodies, ending) := readAllFrom budget rest
      (body :: bodies, ending)
    | .failed e => ([], .failed e)
    | .ended | .pending => ([], .ended)

/-- All messages of a closed stream, and how it ends. -/
def readAll (bytes : List UInt8) : List (List UInt8) × Ending :=
  readAllFrom (bytes.length + 1) bytes

/-! ## Writing -/

/-- A body with its header. -/
def write (body : List UInt8) : List UInt8 :=
  Utf8.ofString "Content-Length: " ++ Utf8.encodeChars (Nat.toDigits 10 body.length)
    ++ [13, 10, 13, 10] ++ body

end SfcProxy.Frame
