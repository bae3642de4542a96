import SfcProxy.Tool.Utility.Basic

/-!
# Sorting

Lines are ordered by keys, each of which compares a part of the line in its own way. Lines that no
key tells apart are ordered by their bytes.

## Main definitions

* `Sorting.Key`, `Sorting.Key.part`: what a key compares
* `Sorting.Order.compare`: the order of lines
* `Utility.sort`: the utility
-/

namespace SfcProxy.Tool

namespace Sorting

/-- What parts of lines are taken for when they are compared. -/
inductive Sense where
  | text
  | number
  /-- A number that may have an exponent. -/
  | general
  /-- A number with a suffix for its unit. -/
  | human
  | month
  /-- A name with version numbers in it. -/
  | version
  deriving DecidableEq

/-- How parts of lines are compared. -/
structure Ordering where
  skipStart : Bool := false
  skipEnd : Bool := false
  dictionary : Bool := false
  fold : Bool := false
  printable : Bool := false
  sense : Sense := .text
  reverse : Bool := false
  deriving DecidableEq

/-- Whether anything but the direction is set. -/
def Ordering.isPlain (o : Ordering) : Bool :=
  !(o.skipStart || o.skipEnd || o.dictionary || o.fold || o.printable) && o.sense = .text

/-- The ordering with the meaning of a letter added, at the start or the end of a key. -/
def Ordering.withLetter (atStart atEnd : Bool) (o : Ordering) : Char → Option Ordering
  | 'b' => some { o with skipStart := o.skipStart || atStart, skipEnd := o.skipEnd || atEnd }
  | 'd' => some { o with dictionary := true }
  | 'f' => some { o with fold := true }
  | 'i' => some { o with printable := true }
  | 'n' => some { o with sense := .number }
  | 'g' => some { o with sense := .general }
  | 'h' => some { o with sense := .human }
  | 'M' => some { o with sense := .month }
  | 'V' => some { o with sense := .version }
  | 'r' => some { o with reverse := true }
  | _ => none

/-- A key: the fields and characters before it, where it ends if not at the end of the line, and
how it is compared. -/
structure Key where
  startField : Nat
  startChar : Nat
  stop : Option (Nat × Nat)
  ordering : Ordering
  deriving DecidableEq

/-- A blank between fields. -/
def isBlank (c : Char) : Bool :=
  c == ' ' || c == '\t' || c == '\n'

/-- A line without its first fields. -/
def dropFields (separator : Option Char) : (count : Nat) → Octets → Octets
  | 0, line => line
  | count + 1, line =>
    match separator with
    | some c => dropFields separator count ((line.dropWhile (· != c)).drop 1)
    | none => dropFields separator count ((line.dropWhile isBlank).dropWhile (!isBlank ·))

/-- The number of octets in the first fields of a line; the separator behind the last of them
counts if `through` is set. -/
def fieldsLength (separator : Option Char) (through : Bool) : (count : Nat) → Octets → Nat
  | 0, _ => 0
  | count + 1, line =>
    match separator with
    | some c =>
      let field := line.takeWhile (· != c)
      let more := if field.length < line.length && (count > 0 || through) then 1 else 0
      field.length + more + fieldsLength separator through count (line.drop (field.length + more))
    | none =>
      let rest := (line.dropWhile isBlank).dropWhile (!isBlank ·)
      line.length - rest.length + fieldsLength separator through count rest

/-- The part of a line that a key compares. -/
def Key.part (separator : Option Char) (key : Key) (line : Octets) : Octets :=
  let rest := dropFields separator key.startField line
  let rest := if key.ordering.skipStart then rest.dropWhile isBlank else rest
  let start := line.length - (rest.drop key.startChar).length
  let stop := match key.stop with
    | none => line.length
    | some (field, 0) => fieldsLength separator false (field + 1) line
    | some (field, char) =>
      let before := fieldsLength separator true field line
      let rest := line.drop before
      let blanks := if key.ordering.skipEnd then (rest.takeWhile isBlank).length else 0
      min line.length (before + blanks + char)
  (line.take stop).drop start

/-- The order of two octet sequences by the first octet in which they differ. -/
def compareBytes : Octets → Octets → Int
  | [], [] => 0
  | [], _ :: _ => -1
  | _ :: _, [] => 1
  | a :: as, b :: bs =>
    if a.toNat < b.toNat then -1 else if b.toNat < a.toNat then 1 else compareBytes as bs

/-- The number at the front of octets, as a sign, whole digits and digits behind the point. -/
def numberAt (s : Octets) : Bool × Octets × Octets :=
  let s := s.dropWhile isBlank
  let negative := s.head? = some '-'
  let s := if negative then s.drop 1 else s
  let whole := s.takeWhile Char.isDigit
  let rest := s.drop whole.length
  let fraction := if rest.head? = some '.' then (rest.drop 1).takeWhile Char.isDigit else []
  (negative, whole.dropWhile (· == '0'), (fraction.reverse.dropWhile (· == '0')).reverse)

/-- The order of the numbers at the front of two octet sequences. -/
def compareNumbers (a b : Octets) : Int :=
  let magnitude (x y : Octets × Octets) : Int :=
    if x.1.length ≠ y.1.length then if x.1.length < y.1.length then -1 else 1
    else
      match compareBytes x.1 y.1 with
      | 0 => compareBytes x.2 y.2
      | order => order
  let isZero (x : Octets × Octets) : Bool := x.1.isEmpty && x.2.isEmpty
  let (na, xa) := numberAt a
  let (nb, xb) := numberAt b
  match na && !isZero xa, nb && !isZero xb with
  | false, false => magnitude xa xb
  | true, true => magnitude xb xa
  | true, false => -1
  | false, true => 1

/-- The order of two values of an ordered type. -/
def compareValues (a b : Int) : Int :=
  if a < b then -1 else if b < a then 1 else 0

/-- The number with an exponent at the front of octets, as a fraction; nothing if there is
none. -/
def general? (s : Octets) : Option (Int × Nat) :=
  let s := s.dropWhile isBlank
  let negative := s.head? = some '-'
  let s := if s.head?.any fun c => c == '-' || c == '+' then s.drop 1 else s
  let whole := s.takeWhile Char.isDigit
  let rest := s.drop whole.length
  let fraction := if rest.head? = some '.' then (rest.drop 1).takeWhile Char.isDigit else []
  let rest := if rest.head? = some '.' then rest.drop (fraction.length + 1) else rest
  if whole.isEmpty && fraction.isEmpty then none
  else
    let exponent : Int := match rest with
      | 'e' :: more | 'E' :: more =>
        let digits := if more.head?.any fun c => c == '-' || c == '+' then more.drop 1 else more
        let n : Int := Octets.digitsValue 10 (digits.takeWhile Char.isDigit)
        if more.head? = some '-' then -n else n
      | _ => 0
    let value : Int := Octets.digitsValue 10 (whole ++ fraction)
    let value := if negative then -value else value
    let power := exponent - fraction.length
    some (if power < 0 then (value, Nat.pow 10 power.natAbs)
      else (value * Int.pow 10 power.natAbs, 1))

/-- The order of two numbers that may have exponents; what is no number comes first. -/
def compareGeneral (a b : Octets) : Int :=
  match general? a, general? b with
  | none, none => 0
  | none, some _ => -1
  | some _, none => 1
  | some (x, m), some (y, n) => compareValues (x * n) (y * m)

/-- The rank of the unit behind a number, which counts against it if it is below zero. -/
def unitRank (s : Octets) : Int :=
  let s := s.dropWhile isBlank
  let negative := s.head? = some '-'
  let s := if negative then s.drop 1 else s
  let rest := s.dropWhile fun c => c.isDigit || c == '.'
  let digits := (s.take (s.length - rest.length)).filter fun c => c != '.' && c != '0'
  let rank : Nat := match rest with
    | 'k' :: _ => 1
    | c :: _ => (("KMGTPEZYRQ".toList.findIdx? (· == c)).map (· + 1)).getD 0
    | [] => 0
  if digits.isEmpty then 0 else if negative then -(rank : Int) else rank

/-- The order of two numbers with suffixes for their units. -/
def compareHuman (a b : Octets) : Int :=
  match compareValues (unitRank a) (unitRank b) with
  | 0 => compareNumbers a b
  | order => order

/-- The number of the month that octets start with, or zero. -/
def monthNumber (s : Octets) : Nat :=
  let name := ((s.dropWhile isBlank).take 3).map Char.toUpper
  let months := ["JAN", "FEB", "MAR", "APR", "MAY", "JUN", "JUL", "AUG", "SEP", "OCT", "NOV", "DEC"]
  ((months.findIdx? (·.toList = name)).map (· + 1)).getD 0

/-- The rank of the first octet of a part without digits: the end of a text comes before all but
a tilde, and letters come before everything else. -/
def versionRank (s : Octets) : Int :=
  match s with
  | [] => -1
  | c :: _ =>
    if c.isDigit then 0 else if c.isAlpha then c.toNat else if c = '~' then -2 else c.toNat + 256

/-- The order of two texts by parts without digits and by numbers in turn. -/
def compareVersionsFrom : (budget : Nat) → Octets → Octets → Int
  | 0, _, _ => 0
  | budget + 1, a, b =>
    if a.isEmpty && b.isEmpty then 0
    else
      let inWord (s : Octets) : Bool := s.head?.any (!·.isDigit)
      if inWord a || inWord b then
        match compareValues (versionRank a) (versionRank b) with
        | 0 => compareVersionsFrom budget (a.drop 1) (b.drop 1)
        | order => order
      else
        let digits (s : Octets) : Octets := s.takeWhile Char.isDigit
        match compareValues (Octets.digitsValue 10 (digits a))
            (Octets.digitsValue 10 (digits b)) with
        | 0 => compareVersionsFrom budget (a.drop (digits a).length) (b.drop (digits b).length)
        | order => order

/-- The length of a name without its endings, each of which is a dot, a letter or tilde, and
letters, digits and tildes. -/
def stemLength (s : Octets) : Nat :=
  let isEnding (part : Octets) : Bool := match part with
    | [] => false
    | c :: rest => (c.isAlpha || c == '~') && rest.all fun c => c.isAlphanum || c == '~'
  let parts := s.split (· == '.')
  let endings := (parts.drop 1).reverse.takeWhile isEnding
  s.length - endings.foldl (fun length ending => length + ending.length + 1) 0

/-- The order of two names with version numbers in them. -/
def compareVersions (a b : Octets) : Int :=
  let rank (s : Octets) : Int :=
    if s.isEmpty then 0
    else if s = ['.'] then 1
    else if s = ['.', '.'] then 2
    else if s.head? = some '.' then 3 else 4
  match compareValues (rank a) (rank b) with
  | 0 =>
    let budget := a.length + b.length + 1
    match compareVersionsFrom budget (a.take (stemLength a)) (b.take (stemLength b)) with
    | 0 => compareVersionsFrom budget a b
    | order => order
  | order => order

/-- Octets as an ordering compares them. -/
def Ordering.view (o : Ordering) (s : Octets) : Octets :=
  let s := if o.dictionary then s.filter fun c => isBlank c || c.isAlphanum else s
  let s := if o.printable then s.filter fun c => 32 ≤ c.toNat && c.toNat < 127 else s
  if o.fold then s.map Char.toUpper else s

/-- The order of two parts of lines. -/
def Ordering.compare (o : Ordering) (a b : Octets) : Int :=
  let order := match o.sense with
    | .text => compareBytes (o.view a) (o.view b)
    | .number => compareNumbers a b
    | .general => compareGeneral a b
    | .human => compareHuman a b
    | .month => compareValues (monthNumber a) (monthNumber b)
    | .version => compareVersions a b
  if o.reverse then -order else order

/-- The order of lines as a whole: keys, the separator of fields, whether lines that no key tells
apart stay as they are, and the direction of the last resort. -/
structure Order where
  keys : List Key
  separator : Option Char
  stable : Bool
  reverse : Bool
  deriving DecidableEq

/-- The order of two lines by keys. -/
def compareKeys (separator : Option Char) (a b : Octets) : List Key → Int
  | [] => 0
  | key :: rest =>
    match key.ordering.compare (key.part separator a) (key.part separator b) with
    | 0 => compareKeys separator a b rest
    | order => order

/-- The order of two lines. -/
def Order.compare (o : Order) (a b : Octets) : Int :=
  match compareKeys o.separator a b o.keys with
  | 0 =>
    if o.stable then 0
    else if o.reverse then -compareBytes a b
    else compareBytes a b
  | order => order

/-- One of each run of neighbours that are equal. -/
def dropRepeats (o : Order) : List Octets → List Octets
  | a :: b :: rest =>
    if o.compare a b = 0 then dropRepeats o (a :: rest) else a :: dropRepeats o (b :: rest)
  | lines => lines
termination_by lines => lines.length

/-! ## Reading keys -/

/-- The ordering that letters stand for; the rest is what is no letter of an ordering. -/
def letters (atStart atEnd : Bool) (o : Ordering) : Octets → Ordering × Octets
  | [] => (o, [])
  | c :: rest =>
    match o.withLetter atStart atEnd c with
    | some o => letters atStart atEnd o rest
    | none => (o, c :: rest)

/-- A number and what follows it; nothing is no number. -/
def number? (s : Octets) : Option (Nat × Octets) :=
  let digits := s.takeWhile Char.isDigit
  if digits.isEmpty then none else some (Octets.digitsValue 10 digits, s.drop digits.length)

/-- A position in a line: a field, and a character behind a dot; `missing` is the character where
there is none. -/
def position? (missing : Nat) (s : Octets) : Option (Nat × Nat × Octets) := do
  let (field, rest) ← number? s
  match rest with
  | '.' :: rest => do
    let (char, rest) ← number? rest
    return (field, char, rest)
  | rest => return (field, missing, rest)

/-- The wording about a bad key. -/
def badKey (what : String) (written : Octets) : Octets :=
  what.toList ++ ": invalid field specification ".toList ++ Utility.quoted written

/-- Reads a key. -/
def readKey (written : Octets) : Except Octets Key :=
  match position? 1 written with
  | none =>
    .error ("invalid number at field start: invalid count at start of ".toList
      ++ Utility.quoted written)
  | some (field, char, rest) =>
    if field = 0 then .error (badKey "field number is zero" written)
    else if char = 0 then .error (badKey "character offset is zero" written)
    else
      let (o, rest) := letters true false {} rest
      match rest with
      | [] => .ok ⟨field - 1, char - 1, none, o⟩
      | ',' :: rest =>
        match position? 0 rest with
        | none =>
          .error ("invalid number after ',': invalid count at start of ".toList
            ++ Utility.quoted rest)
        | some (endField, endChar, rest) =>
          if endField = 0 then .error (badKey "field number is zero" written)
          else
            let (o, rest) := letters false true o rest
            if rest.isEmpty then .ok ⟨field - 1, char - 1, some (endField - 1, endChar), o⟩
            else .error (badKey "stray character in field spec" written)
      | _ => .error (badKey "stray character in field spec" written)

end Sorting

namespace Utility

open Act

/-- The options of `sort`. -/
def sortOptions : List Options.Spec :=
  [⟨"b", "ignore-leading-blanks", .none⟩, ⟨"d", "dictionary-order", .none⟩,
    ⟨"f", "ignore-case", .none⟩, ⟨"i", "ignore-nonprinting", .none⟩, ⟨"n", "numeric-sort", .none⟩,
    ⟨"g", "general-numeric-sort", .none⟩, ⟨"h", "human-numeric-sort", .none⟩,
    ⟨"M", "month-sort", .none⟩, ⟨"V", "version-sort", .none⟩, ⟨"r", "reverse", .none⟩,
    ⟨"u", "unique", .none⟩, ⟨"s", "stable", .none⟩,
    ⟨"c", "check", .optional⟩, ⟨"C", "", .none⟩, ⟨"m", "merge", .none⟩,
    ⟨"o", "output", .required⟩, ⟨"t", "field-separator", .required⟩, ⟨"k", "key", .required⟩,
    ⟨"z", "zero-terminated", .none⟩]

/-- The order that options ask for. -/
def sortOrder (r : Options.Reading) : Except Octets Sorting.Order := do
  let overall := r.given.foldl (fun o (key, _) =>
    match key.toList with
    | [c] => (o.withLetter true true c).getD o
    | _ => o) ({} : Sorting.Ordering)
  let separator ← match r.value? "t" with
    | none => .ok none
    | some [c] => .ok (some c)
    | some ['\\', '0'] => .ok (some '\x00')
    | some [] => .error "empty tab".toList
    | some s => .error ("multi-character tab ".toList ++ quoted s)
  let keys ← (r.values "k").mapM Sorting.readKey
  -- A key without an ordering of its own is compared in the overall way.
  let keys := keys.map fun k =>
    if k.ordering.isPlain && !k.ordering.reverse then { k with ordering := overall } else k
  let keys := if keys.isEmpty && !overall.isPlain then [⟨0, 0, none, overall⟩] else keys
  return ⟨keys, separator, r.has "s" || r.has "u" && !keys.isEmpty, overall.reverse⟩

/-- The first line that is not in order, with its number. -/
def disorder? (o : Sorting.Order) (strict : Bool) (number : Nat) :
    List Octets → Option (Nat × Octets)
  | a :: b :: rest =>
    let order := o.compare a b
    if order > 0 || (strict && order = 0) then some (number + 1, b)
    else disorder? o strict (number + 1) (b :: rest)
  | _ => none

/-- Reads the files of `sort`, which gives up at the first that it cannot read. -/
def readSorted (name : Octets) : List Octets → Act (List Octets)
  | [] => return []
  | file :: rest => do
    match ← openOperand file with
    | .error cause =>
      grumble name ("cannot read: ".toList ++ file ++ ": ".toList ++ causeText cause)
      exit 2
    | .ok stream =>
      match ← readToEnd stream with
      | .error cause =>
        grumble name ("read failed: ".toList ++ file ++ ": ".toList ++ causeText cause)
        exit 2
      | .ok content =>
        closeOperand stream
        return content :: (← readSorted name rest)

/-- Sorts the lines of its files. -/
def sort : Utility :=
  withOptions sortOptions 2 fun name r =>
    match sortOrder r with
    | .error message => fail 2 name message
    | .ok order => do
      let contents ← readSorted name (orInput r.operands)
      let cut := if r.has "z" then '\x00' else '\n'
      let split (s : Octets) : List Octets :=
        let pieces := s.split (· == cut)
        if pieces.getLast? = some [] then pieces.dropLast else pieces
      let lines := contents.flatMap split
      if r.has "c" || r.has "C" then
        match disorder? order (r.has "u") 1 lines with
        | none => return 0
        | some (number, line) =>
          if !r.has "C" then
            grumble name (((orInput r.operands).headD []) ++ ":".toList ++ Octets.ofNat number
              ++ ": disorder: ".toList ++ line)
          return 1
      else
        let inOrder (a b : Octets) : Bool := order.compare a b ≤ 0
        let sorted := if r.has "m" then
          contents.foldl (fun merged s => List.merge merged (split s) inOrder) []
          else lines.mergeSort inOrder
        let kept := if r.has "u" then Sorting.dropRepeats order sorted else sorted
        let result := kept.flatMap (· ++ [cut])
        match r.value? "o" with
        | none => emitLast name result 0
        | some file =>
          match ← ask (.openFile file .write) with
          | .error cause =>
            fail 2 name ("open failed: ".toList ++ file ++ ": ".toList ++ causeText cause)
          | .ok stream =>
            put stream result
            return 0

end Utility

end SfcProxy.Tool
