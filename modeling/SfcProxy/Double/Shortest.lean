import SfcProxy.Double.Basic
import SfcProxy.Text.Basic

/-!
# Shortest decimals

A value is written with the fewest decimal digits that read back as the same value; among
decimals of that length the one nearest to the value is taken. Exponents from -4 to 15 are
written positionally, always with a point.

## Main definitions

* `Double.shortest`: the digits and the place of the decimal point
* `Double.text`: the written form
-/

namespace SfcProxy.Double

/-- The least `k` with `num / den < 10 ^ k`, found near the quotient of the binary lengths. -/
def decimalPlace (num den : Nat) : Int :=
  let guess : Int := (((Nat.log2 num : Int) - (Nat.log2 den : Int)) * 30103).fdiv 100000
  let below (k : Int) : Bool :=
    if k < 0 then num * Nat.pow 10 k.natAbs < den else num < den * Nat.pow 10 k.natAbs
  if below (guess - 1) then guess - 1
  else if below guess then guess
  else if below (guess + 1) then guess + 1
  else guess + 2

/-- The decimals of `count` digits next below and above `num / den`, the nearer one first;
`place` is where the decimal point stands. -/
def neighbours (num den count : Nat) (place : Int) : List Nat :=
  let shift := place - count
  let n := if shift < 0 then num * Nat.pow 10 shift.natAbs else num
  let d := if shift < 0 then den else den * Nat.pow 10 shift.natAbs
  let q := n / d
  let r := n % d
  if 2 * r < d ∨ (2 * r = d ∧ q % 2 = 0) then [q, q + 1] else [q + 1, q]

/-- Searches `fuel` digit counts from `count` on for digits that read back as the value. -/
def searchDigits (negative : Bool) (value : Double) (num den : Nat) (place : Int) :
    (fuel count : Nat) → Nat × Nat
  | 0, count => ((neighbours num den count place).headD 0, count)
  | fuel + 1, count =>
    let fits (digits : Nat) : Bool := ofDecimal negative digits count (place - count) = value
    match (neighbours num den count place).find? fits with
    | some digits => (digits, count)
    | none => searchDigits negative value num den place fuel (count + 1)

/-- The fewest digits that read back as `± m · 2 ^ e`, and the place of the decimal point counted
from their front. -/
def shortest (negative : Bool) (m : Nat) (e : Int) : List Char × Int :=
  if m = 0 then (['0'], 1)
  else
    let num := if e < 0 then m else m * Nat.pow 2 e.natAbs
    let den := if e < 0 then Nat.pow 2 e.natAbs else 1
    let place := decimalPlace num den
    let (digits, count) := searchDigits negative (finite negative m e) num den place 16 1
    -- The upper neighbour may be a power of ten, one digit longer than asked for.
    let written := Nat.toDigits 10 digits
    let place := place + ((written.length : Int) - count)
    let kept := (written.reverse.dropWhile (· == '0')).reverse
    (if kept.isEmpty then ['0'] else kept, place)

/-- The exponents that are written positionally. -/
def positional (exponent : Int) : Bool :=
  -4 ≤ exponent && exponent < 16

/-- An exponent with its sign and at least two digits. -/
def exponentText (exponent : Int) : List Char :=
  let digits := Nat.toDigits 10 exponent.natAbs
  (if exponent < 0 then '-' else '+') :: (List.replicate (2 - digits.length) '0' ++ digits)

/-- Digits with a decimal point at `place`, or with an exponent where that would be long. -/
def layout (digits : List Char) (place : Int) : List Char :=
  if positional (place - 1) then
    if place ≤ 0 then '0' :: '.' :: (List.replicate place.natAbs '0' ++ digits)
    else
      let whole := digits.take place.toNat
      let fraction := digits.drop place.toNat
      whole ++ List.replicate (place.toNat - digits.length) '0' ++ '.' ::
        (if fraction.isEmpty then ['0'] else fraction)
  else
    let fraction := digits.drop 1
    digits.take 1 ++ (if fraction.isEmpty then [] else '.' :: fraction)
      ++ 'e' :: exponentText (place - 1)

/-- The spellings of the values that have no digits. -/
structure Specials where
  infinity : String
  minusInfinity : String
  notANumber : String

/-- The written form of a value. -/
def text (specials : Specials) : Double → List Char
  | finite negative m e =>
    let (digits, place) := shortest negative m e
    (if negative then ['-'] else []) ++ layout digits place
  | infinite false => specials.infinity.toList
  | infinite true => specials.minusInfinity.toList
  | nan => specials.notANumber.toList

end SfcProxy.Double
