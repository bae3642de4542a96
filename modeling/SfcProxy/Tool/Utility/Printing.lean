import SfcProxy.Tool.Utility.Basic
import SfcProxy.Tool.Utility.Fraction

/-!
# Printing

Formats hold text, escapes and directives; each directive takes an argument. A format is used again
as long as arguments are left.

## Main definitions

* `Printing.Dialect`: in what implementations differ
* `Printing.escape?`: the octets of an escape
* `Printing.Directive`: how an argument is shown
* `Printing.print`: prints a format with its arguments
* `Printing.echo`: the text that echoes arguments
-/

namespace SfcProxy.Tool.Printing

/-- What is wrong with a format or an argument. -/
inductive Complaint where
  | notNumeric (argument : Octets)
  | notConverted (argument : Octets)
  | outOfRange (argument : Octets)
  | badDirective (directive : Octets)
  | missingFormat
  | excess (argument : Octets)
  deriving DecidableEq

/-- In what implementations differ: whether they know more escapes and directives, how many
binary digits their fractions have, and their wording. -/
structure Dialect where
  knowsMore : Bool
  fractionDigits : Nat
  wording : Complaint → Octets

/-! ## Escapes -/

/-- An octal digit. -/
def isOctal (c : Char) : Bool :=
  '0' ≤ c && c ≤ '7'

/-- A hexadecimal digit. -/
def isHex (c : Char) : Bool :=
  c.isDigit || ('a' ≤ c && c ≤ 'f') || ('A' ≤ c && c ≤ 'F')

/-- The octet of a one-letter escape. -/
def letterEscape? : Char → Option Char
  | 'a' => some '\x07'
  | 'b' => some '\x08'
  | 'e' => some '\x1b'
  | 'f' => some '\x0c'
  | 'n' => some '\n'
  | 'r' => some '\r'
  | 't' => some '\t'
  | 'v' => some '\x0b'
  | '\\' => some '\\'
  | _ => none

/-- An octet with a number. -/
def octet (n : Nat) : Char :=
  Char.ofNat (n % 256)

/-- The octets of the escape behind a backslash and what follows it. With `zero`, a zero may stand
in front of octal digits. -/
def escape? (more zero : Bool) (s : Octets) : Option (Octets × Octets) :=
  let character (count : Nat) (s : Octets) : Option (Octets × Octets) :=
    let digits := (s.take count).takeWhile isHex
    if digits.isEmpty then none
    else
      let c := Char.ofNat (Octets.digitsValue 16 digits)
      some (Octets.ofBytes (Utf8.encodeChar c), s.drop digits.length)
  match s with
  | [] => none
  | c :: rest =>
    match letterEscape? c with
    | some e => some ([e], rest)
    | none =>
      if isOctal c then
        let digits := if zero && c == '0' then (rest.take 3).takeWhile isOctal
          else (s.take 3).takeWhile isOctal
        let used := if zero && c == '0' then digits.length + 1 else digits.length
        some ([octet (Octets.digitsValue 8 digits)], s.drop used)
      else if more && c == 'x' then
        let digits := (rest.take 2).takeWhile isHex
        if digits.isEmpty then none
        else some ([octet (Octets.digitsValue 16 digits)], rest.drop digits.length)
      else if more && c == 'u' then character 4 rest
      else if more && c == 'U' then character 8 rest
      else if more && c == '"' then some (['"'], rest)
      else none

/-- Octets with their escapes carried out, at most `budget` steps, and whether `\c` stopped
them. -/
def unescapeFrom (more : Bool) : (budget : Nat) → Octets → Octets × Bool
  | 0, s => (s, false)
  | _, [] => ([], false)
  | budget + 1, '\\' :: s =>
    if s.head? = some 'c' then ([], true)
    else
      match escape? more true s with
      | some (c, rest) =>
        let (shown, stopped) := unescapeFrom more budget rest
        (c ++ shown, stopped)
      | none =>
        let (shown, stopped) := unescapeFrom more budget s
        ('\\' :: shown, stopped)
  | budget + 1, c :: s =>
    let (shown, stopped) := unescapeFrom more budget s
    (c :: shown, stopped)

/-- Octets with their escapes carried out, and whether `\c` stopped them. -/
def unescape (more : Bool) (s : Octets) : Octets × Bool :=
  unescapeFrom more s.length s

/-! ## Numbers -/

/-- The greatest signed number. -/
def maxSigned : Int := 9223372036854775807

/-- The greatest unsigned number. -/
def maxUnsigned : Int := 18446744073709551615

/-- The number at the front of octets, what follows it, and whether there is one. -/
def readNumber (s : Octets) : Int × Octets × Bool :=
  let s := s.dropWhile fun c => c == ' ' || c == '\t' || c == '\n'
  let (sign, body) : Int × Octets := match s with
    | '-' :: rest => (-1, rest)
    | '+' :: rest => (1, rest)
    | _ => (1, s)
  let (base, digits) : Nat × Octets := match body with
    | '0' :: x :: rest =>
      if (x == 'x' || x == 'X') && rest.head?.any isHex then (16, rest.takeWhile isHex)
      else (8, body.takeWhile isOctal)
    | '0' :: [] => (8, body)
    | _ => (10, body.takeWhile Char.isDigit)
  let used := digits.length + if base = 16 then 2 else 0
  (sign * Octets.digitsValue base digits, body.drop used, !digits.isEmpty)

/-- The value of a numeric argument, and what is wrong with it. -/
def numericValue (signed : Bool) (argument : Octets) : Int × Option Complaint :=
  match argument with
  | [] => (0, none)
  | '\'' :: c :: _ | '"' :: c :: _ => (c.toNat, none)
  | _ =>
    let (n, rest, found) := readNumber argument
    if !found then (0, some (.notNumeric argument))
    else if signed && n > maxSigned then (maxSigned, some (.outOfRange argument))
    else if signed && n < -maxSigned - 1 then (-maxSigned - 1, some (.outOfRange argument))
    else if !signed && n.natAbs > maxUnsigned then (maxUnsigned, some (.outOfRange argument))
    else (n, if rest.isEmpty then none else some (.notConverted argument))

/-! ## Directives -/

/-- How an argument is shown: flags, a width, a precision and a letter. -/
structure Directive where
  flags : Octets
  width : Option Int
  precision : Option Int
  letter : Char
  deriving DecidableEq

/-- Octets filled up to the width of a directive. -/
def Directive.pad (d : Directive) (s : Octets) : Octets :=
  let width := (d.width.getD 0).natAbs
  let fill := List.replicate (width - s.length) ' '
  if d.flags.contains '-' || d.width.any (· < 0) then s ++ fill else fill ++ s

/-- A precision that is not negative. -/
def Directive.places? (d : Directive) : Option Nat :=
  d.precision.bind fun n => if n < 0 then none else some n.toNat

/-- A number with a sign, shown by a directive. -/
def Directive.showDigits (d : Directive) (sign digits : Octets) : Octets :=
  let digits := match d.places? with
    | some n =>
      if n = 0 && digits = ['0'] then [] else List.replicate (n - digits.length) '0' ++ digits
    | none =>
      let width := (d.width.getD 0).toNat
      if d.flags.contains '0' && !d.flags.contains '-' then
        List.replicate (width - sign.length - digits.length) '0' ++ digits
      else digits
  d.pad (sign ++ digits)

/-- The sign in front of a number. -/
def Directive.sign (d : Directive) (negative : Bool) : Octets :=
  if negative then ['-'] else if d.flags.contains '+' then ['+']
  else if d.flags.contains ' ' then [' '] else []

/-- An integer shown by a directive. -/
def Directive.showInt (d : Directive) (n : Int) : Octets :=
  if d.letter = 'd' || d.letter = 'i' then d.showDigits (d.sign (n < 0)) (Octets.ofNat n.natAbs)
  else
    let n := (n % (maxUnsigned + 1)).toNat
    let alternative := d.flags.contains '#'
    match d.letter with
    | 'x' => d.showDigits (if alternative && n ≠ 0 then "0x".toList else []) (Nat.toDigits 16 n)
    | 'X' =>
      d.showDigits (if alternative && n ≠ 0 then "0X".toList else [])
        ((Nat.toDigits 16 n).map Char.toUpper)
    | 'o' => d.showDigits [] ((if alternative && n ≠ 0 then ['0'] else []) ++ Nat.toDigits 8 n)
    | _ => d.showDigits [] (Octets.ofNat n)

/-- The letters of directives that show fractions. -/
def fractionLetters : List Char :=
  "eEfFgG".toList

/-- A fraction shown by a directive, and what is wrong with the argument. -/
def Directive.showFraction (digits : Nat) (d : Directive) (argument : Octets) :
    Octets × Option Complaint :=
  let (x, complaint) : Fraction × Option Complaint := match argument with
    | [] => (⟨false, 0, 1⟩, none)
    | '\'' :: c :: _ | '"' :: c :: _ => (⟨false, c.toNat, 1⟩, none)
    | _ =>
      match Fraction.read? argument with
      | none => (⟨false, 0, 1⟩, some (.notNumeric argument))
      | some (x, rest) => (x, if rest.isEmpty then none else some (.notConverted argument))
  let x := x.nearest digits
  let places := d.places?.getD 6
  let shown := match d.letter with
    | 'e' | 'E' => x.scientific places
    | 'f' | 'F' => x.fixed places
    | _ => x.general places (d.flags.contains '#')
  let shown := if d.letter.isUpper then shown.map Char.toUpper else shown
  ({ d with precision := none }.showDigits (d.sign x.negative) shown, complaint)

/-- Octets as a shell reads them back: in quotes if anything in them is special. -/
def shellQuoted (s : Octets) : Octets :=
  let isPlain (c : Char) : Bool := c.isAlphanum || c.toNat ≥ 128 || "%+,-./:@_".toList.contains c
  if s.isEmpty then "''".toList
  else if s.all isPlain then s
  else if s.contains '\'' && !s.any (fun c => "\"$`\\!".toList.contains c || c.toNat < 32) then
    '"' :: s ++ ['"']
  else
    let pieces := s.flatMap fun c =>
      if c = '\'' then "'\\''".toList
      else if c = '\n' then "'$'\\n''".toList
      else if c = '\t' then "'$'\\t''".toList
      else [c]
    '\'' :: pieces ++ ['\'']

/-- A directive behind its percent sign, the arguments that are left, and what follows. Without a
letter there is none. Letters for the size of arguments may be passed over. -/
def readDirective (dialect : Dialect) (arguments : List Octets) (s : Octets) :
    Option Directive × List Octets × Octets :=
  let flags := s.takeWhile "-+ #0".toList.contains
  let s := s.drop flags.length
  let field (s : Octets) (arguments : List Octets) : Option Int × List Octets × Octets :=
    match s with
    | '*' :: rest => (some (numericValue true (arguments.headD [])).1, arguments.tail, rest)
    | _ =>
      let digits := s.takeWhile Char.isDigit
      (if digits.isEmpty then none else some (Octets.digitsValue 10 digits), arguments,
        s.drop digits.length)
  let (width, arguments, s) := field s arguments
  let (precision, arguments, s) := match s with
    | '.' :: rest =>
      let (n, arguments, rest) := field rest arguments
      (some (n.getD 0), arguments, rest)
    | _ => (none, arguments, s)
  match if dialect.knowsMore then s.dropWhile "hjlLtz".toList.contains else s with
  | [] => (none, arguments, [])
  | letter :: rest => (some ⟨flags, width, precision, letter⟩, arguments, rest)

/-! ## Formats -/

/-- What has come of a format: what is printed, what is wrong, and whether printing is over. -/
structure Printed where
  text : Octets
  complaints : List Complaint
  ended : Bool
  deriving DecidableEq

/-- Text in front of what comes of the rest. -/
def Printed.behind (p : Printed) (text : Octets) (complaint : Option Complaint) : Printed :=
  ⟨text ++ p.text, complaint.toList ++ p.complaints, p.ended⟩

/-- One use of a format, in at most `budget` steps; gives the arguments that are left too. -/
def use (dialect : Dialect) : (budget : Nat) → (arguments : List Octets) → Octets →
    Printed × List Octets
  | 0, arguments, _ => (⟨[], [], false⟩, arguments)
  | _, arguments, [] => (⟨[], [], false⟩, arguments)
  | budget + 1, arguments, '\\' :: s =>
    if dialect.knowsMore && s.head? = some 'c' then (⟨[], [], true⟩, arguments)
    else
      match escape? dialect.knowsMore false s with
      | some (c, rest) =>
        let (p, left) := use dialect budget arguments rest
        (p.behind c none, left)
      | none =>
        let (p, left) := use dialect budget arguments s
        (p.behind ['\\'] none, left)
  | budget + 1, arguments, '%' :: '%' :: s =>
    let (p, left) := use dialect budget arguments s
    (p.behind ['%'] none, left)
  | budget + 1, arguments, '%' :: s =>
    match readDirective dialect arguments s with
    | (none, arguments, _) => (⟨[], [.missingFormat], true⟩, arguments)
    | (some d, arguments, rest) =>
      let argument := arguments.headD []
      let continue_ (shown : Octets) (complaint : Option Complaint) : Printed × List Octets :=
        let (p, left) := use dialect budget arguments.tail rest
        (p.behind shown complaint, left)
      let cropped (t : Octets) : Octets := d.pad (match d.places? with
        | some n => t.take n
        | none => t)
      if d.letter = 's' then continue_ (cropped argument) none
      else if d.letter = 'b' then
        let (text, stopped) := unescape dialect.knowsMore argument
        if stopped then (⟨cropped text, [], true⟩, arguments.tail)
        else continue_ (cropped text) none
      else if d.letter = 'c' then continue_ (d.pad (argument.take 1)) none
      else if "diouxX".toList.contains d.letter then
        let (n, complaint) := numericValue (d.letter = 'd' || d.letter = 'i') argument
        continue_ (d.showInt n) complaint
      else if fractionLetters.contains d.letter then
        let (shown, complaint) := d.showFraction dialect.fractionDigits argument
        continue_ shown complaint
      else if dialect.knowsMore && d.letter = 'q' then continue_ (shellQuoted argument) none
      else
        let written := s.take (s.length - rest.length)
        (⟨[], [.badDirective ('%' :: written)], true⟩, arguments)
  | budget + 1, arguments, c :: s =>
    let (p, left) := use dialect budget arguments s
    (p.behind [c] none, left)

/-- Uses a format again as long as it takes arguments and some are left, at most `budget`
times. -/
def printFrom (dialect : Dialect) (format : Octets) (arguments : List Octets) :
    (budget : Nat) → Printed
  | 0 => ⟨[], [], false⟩
  | budget + 1 =>
    let (p, left) := use dialect (format.length + 1) arguments format
    if p.ended || left.isEmpty then p
    else if left.length = arguments.length then
      { p with complaints := p.complaints ++ [.excess (left.headD [])] }
    else
      let more := printFrom dialect format left budget
      ⟨p.text ++ more.text, p.complaints ++ more.complaints, more.ended⟩

/-- Prints a format with its arguments. -/
def print (dialect : Dialect) (format : Octets) (arguments : List Octets) : Printed :=
  printFrom dialect format arguments (arguments.length + 1)

/-! ## Echoes -/

/-- The text that echoes arguments with their escapes carried out. -/
def echo (line : Bool) (arguments : List Octets) : Octets :=
  let (text, stopped) := unescape false (List.intercalate [' '] arguments)
  if stopped || !line then text else text ++ ['\n']

end SfcProxy.Tool.Printing
