import SfcProxy.Tool.Utility.Printing

/-!
# Replacing bytes

The utility that replaces, drops or squeezes single bytes. Its sets are written with ranges,
classes and repetitions.

## Main definitions

* `Exchange.Item`, `Exchange.readSet`: sets of bytes
* `Utility.tr`: the utility
-/

namespace SfcProxy.Tool

namespace Exchange

/-- The bytes of a class. -/
def classTest? (name : String) : Option (Char → Bool) :=
  let isPunct (c : Char) : Bool := 33 ≤ c.toNat && c.toNat ≤ 126 && !c.isAlphanum
  match name with
  | "alnum" => some Char.isAlphanum
  | "alpha" => some Char.isAlpha
  | "blank" => some fun c => c == ' ' || c == '\t'
  | "cntrl" => some fun c => c.toNat < 32 || c.toNat = 127
  | "digit" => some Char.isDigit
  | "graph" => some fun c => 33 ≤ c.toNat && c.toNat ≤ 126
  | "lower" => some Char.isLower
  | "print" => some fun c => 32 ≤ c.toNat && c.toNat ≤ 126
  | "punct" => some isPunct
  | "space" => some Utility.isSpace
  | "upper" => some Char.isUpper
  | "xdigit" => some Printing.isHex
  | _ => none

/-- All bytes. -/
def allBytes : Octets :=
  (List.range 256).map Char.ofNat

/-- A part of a set. -/
inductive Item where
  | bytes (s : Octets)
  | charClass (name : String)
  /-- A byte a number of times; without a number, as often as the other set needs. -/
  | repeated (c : Char) (count : Option Nat)
  deriving DecidableEq

/-- A character of a set, and whether it was escaped. -/
abbrev SetChar := Char × Bool

/-- The characters of a set with their escapes carried out, at most `budget`. -/
def setCharsFrom : (budget : Nat) → Octets → List SetChar
  | 0, _ => []
  | _, [] => []
  | budget + 1, '\\' :: s =>
    match s with
    | [] => [('\\', false)]
    | c :: rest =>
      if c = 'e' then (c, true) :: setCharsFrom budget rest
      else
        match Printing.escape? false false s with
        | some (octets, rest) => octets.map (·, true) ++ setCharsFrom budget rest
        | none => (c, true) :: setCharsFrom budget rest
  | budget + 1, c :: s => (c, false) :: setCharsFrom budget s

/-- The name of a class or the octet of an equivalence between a mark and its closing bracket. -/
def bracketed? (mark : Char) (s : List SetChar) : Option (Octets × List SetChar) :=
  let body := s.takeWhile fun c => c ≠ (mark, false)
  match s.drop body.length with
  | _ :: (']', false) :: rest => some (body.map (·.1), rest)
  | _ => none

/-- A repetition behind its opening bracket: the byte, and how often. -/
def repetition? : List SetChar → Option (Char × Option Nat × List SetChar)
  | (c, _) :: ('*', false) :: rest =>
    let digits := (rest.takeWhile fun d => d.1.isDigit).map (·.1)
    match rest.drop digits.length with
    | (']', false) :: rest =>
      let base := if digits.head? = some '0' then 8 else 10
      let n := Octets.digitsValue base digits
      some (c, if n = 0 then none else some n, rest)
    | _ => none
  | _ => none

/-- Reads the items of a set, at most `budget`. -/
def itemsFrom : (budget : Nat) → List SetChar → Except Octets (List Item)
  | 0, _ => .ok []
  | _, [] => .ok []
  | budget + 1, ('[', false) :: (':', false) :: rest =>
    match bracketed? ':' rest with
    | some (name, rest) =>
      match classTest? (String.ofList name) with
      | some _ => do
        return .charClass (String.ofList name) :: (← itemsFrom budget rest)
      | none => .error ("invalid character class ".toList ++ Utility.quoted name)
    | none => do
      return .bytes ['['] :: (← itemsFrom budget ((':', false) :: rest))
  | budget + 1, ('[', false) :: ('=', false) :: rest =>
    match bracketed? '=' rest with
    | some (body, rest) => do
      return .bytes body :: (← itemsFrom budget rest)
    | none => do
      return .bytes ['['] :: (← itemsFrom budget (('=', false) :: rest))
  | budget + 1, (a, e) :: rest => do
    match if (a, e) = ('[', false) then repetition? rest else none with
    | some (c, count, rest) => return .repeated c count :: (← itemsFrom budget rest)
    | none =>
      match rest with
      | ('-', false) :: (b, _) :: rest =>
        if b.toNat < a.toNat then
          .error ("range-endpoints of '".toList ++ [a, '-', b]
            ++ "' are in reverse collating sequence order".toList)
        else
          let bytes := (List.range (b.toNat + 1 - a.toNat)).map fun i => Char.ofNat (a.toNat + i)
          return .bytes bytes :: (← itemsFrom budget rest)
      | rest => return .bytes [a] :: (← itemsFrom budget rest)

/-- Reads a set. -/
def readSet (s : Octets) : Except Octets (List Item) :=
  itemsFrom (s.length + 1) (setCharsFrom (s.length + 1) s)

/-- The bytes of an item; an open repetition stands for `needed` bytes. -/
def Item.expand (needed : Nat) : Item → Octets
  | bytes s => s
  | charClass name => allBytes.filter ((classTest? name).getD fun _ => false)
  | repeated c count => List.replicate (count.getD needed) c

/-- The bytes of a set that has to reach a length if it can. -/
def expand (length : Nat) (items : List Item) : Octets :=
  let fixed := (items.flatMap (·.expand 0)).length
  items.flatMap (·.expand (length - fixed))

/-- The pairs of bytes that two sets make up: the last byte of the second set stands for all that
are missing, unless `truncate` is set. -/
def table (truncate : Bool) (source target : Octets) : List (Char × Char) :=
  if truncate then source.zip target
  else
    let last := target.getLastD '\x00'
    source.zip (target ++ List.replicate (source.length - target.length) last)

/-- A byte replaced by a table, whose later entries count. -/
def replace (table : List (Char × Char)) (c : Char) : Char :=
  (table.reverse.lookup c).getD c

/-- Octets with runs of the same byte of a set joined. -/
def squeeze (set : Octets) : Octets → Octets
  | a :: b :: rest =>
    if a = b && set.contains a then squeeze set (b :: rest) else a :: squeeze set (b :: rest)
  | s => s

end Exchange

namespace Utility

open Act Exchange

/-- How bytes are replaced, dropped and squeezed. -/
def trMap (drop squeezes complements truncate : Bool) (first second : List Item)
    (hasSecond : Bool) : Octets → Octets :=
  let inner := expand 0 first
  let source := if complements then allBytes.filter (!inner.contains ·) else inner
  let target := expand source.length second
  if drop then fun s =>
    let kept := s.filter (!source.contains ·)
    if squeezes && hasSecond then squeeze target kept else kept
  else if !hasSecond then squeeze source
  else
    let pairs := table truncate source target
    let lookups := allBytes.map (replace pairs)
    fun s =>
      let replaced := s.map fun c => (lookups.drop c.toNat).headD c
      if squeezes then squeeze target replaced else replaced

/-- Replaces, drops or squeezes bytes. -/
def tr : Utility :=
  withOptions
    [⟨"c", "complement", .none⟩, ⟨"C", "", .none⟩, ⟨"d", "delete", .none⟩,
      ⟨"s", "squeeze-repeats", .none⟩, ⟨"t", "truncate-set1", .none⟩] 1 fun name r =>
    let drop := r.has "d"
    let squeezes := r.has "s"
    let extra (s : Octets) : Octets := "extra operand ".toList ++ quoted s
    let missing (s : Octets) (why : String) : Octets :=
      "missing operand after ".toList ++ quoted s ++ '\n' :: why.toList
    match r.operands with
    | [] => misuse 1 name "missing operand".toList
    | [s] =>
      if drop && squeezes then
        misuse 1 name
          (missing s "Two strings must be given when both deleting and squeezing repeats.")
      else if !drop && !squeezes then
        misuse 1 name (missing s "Two strings must be given when translating.")
      else
        match readSet s with
        | .error message => fail 1 name message
        | .ok first =>
          filter name [] (trMap drop squeezes (r.has "c" || r.has "C") (r.has "t") first [] false)
    | [s, t] =>
      if drop && !squeezes then
        misuse 1 name (extra t ++
          "\nOnly one string may be given when deleting without squeezing repeats.".toList)
      else
        match readSet s, readSet t with
        | .error message, _ | _, .error message => fail 1 name message
        | .ok first, .ok second =>
          if !drop && !r.has "t" && (expand 1 second).isEmpty && !(expand 1 first).isEmpty then
            fail 1 name "when not truncating set1, string2 must be non-empty".toList
          else
            filter name []
              (trMap drop squeezes (r.has "c" || r.has "C") (r.has "t") first second true)
    | _ :: _ :: third :: _ => misuse 1 name (extra third)

end Utility

end SfcProxy.Tool
