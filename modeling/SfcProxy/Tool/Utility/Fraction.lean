import SfcProxy.Text.Octets

/-!
# Fractions

Numbers with a point or an exponent. They are read exactly, rounded to as many binary digits as
the reader works with, and written with a number of decimal places; a half goes to the even
neighbour.

## Main definitions

* `Fraction`: a quotient with a sign
* `Fraction.read?`: the fraction at the front of octets
* `Fraction.nearest`: a fraction with a number of binary digits
* `Fraction.fixed`, `Fraction.scientific`, `Fraction.general`: the ways to write a fraction
-/

namespace SfcProxy.Tool

/-- A quotient with a sign. -/
structure Fraction where
  negative : Bool
  top : Nat
  bottom : Nat
  deriving DecidableEq

namespace Fraction

/-! ## Rounding -/

/-- A quotient rounded to an integer, a half to the even neighbour. -/
def roundQuotient (top bottom : Nat) : Nat :=
  let quotient := top / bottom
  let twice := 2 * (top % bottom)
  if twice > bottom || (twice = bottom && quotient % 2 = 1) then quotient + 1 else quotient

/-- The fraction with at most `digits` binary digits that is nearest. -/
def nearest (digits : Nat) (x : Fraction) : Fraction :=
  if x.top = 0 then x
  else
    -- The quotient is scaled so that its whole part has about as many digits.
    let size : Int := (Nat.log2 x.top : Int) - Nat.log2 x.bottom
    let shift : Int := digits - size
    let top := if shift > 0 then x.top * Nat.pow 2 shift.toNat else x.top
    let bottom := if shift > 0 then x.bottom else x.bottom * Nat.pow 2 (-shift).toNat
    let excess := Nat.log2 (top / bottom) + 1 - digits
    let rounded := roundQuotient top (bottom * Nat.pow 2 excess) * Nat.pow 2 excess
    if shift > 0 then { x with top := rounded, bottom := Nat.pow 2 shift.toNat }
    else { x with top := rounded * Nat.pow 2 (-shift).toNat, bottom := 1 }

/-! ## Reading -/

/-- The exponent behind a letter, and how many octets it takes; nothing if there is none. -/
def exponent? (letters : List Char) (s : Octets) : Option (Int × Nat) :=
  match s with
  | c :: rest =>
    let signed := rest.head?.any fun c => c == '-' || c == '+'
    let digits := (if signed then rest.drop 1 else rest).takeWhile Char.isDigit
    if !letters.contains c || digits.isEmpty then none
    else
      let n : Int := Octets.digitsValue 10 digits
      some (if rest.head? = some '-' then -n else n, digits.length + (if signed then 2 else 1))
  | [] => none

/-- The fraction at the front of octets and what follows it; nothing if there is none. -/
def read? (s : Octets) : Option (Fraction × Octets) :=
  let s := s.dropWhile fun c => c == ' ' || (9 ≤ c.toNat && c.toNat ≤ 13)
  let negative := s.head? = some '-'
  let body := if s.head?.any fun c => c == '-' || c == '+' then s.drop 1 else s
  let whole := body.takeWhile Char.isDigit
  let rest := body.drop whole.length
  let fraction := if rest.head? = some '.' then (rest.drop 1).takeWhile Char.isDigit else []
  let rest := if rest.head? = some '.' then rest.drop (fraction.length + 1) else rest
  if whole.isEmpty && fraction.isEmpty then none
  else
    let (exponent, used) := (exponent? ['e', 'E'] rest).getD (0, 0)
    let n := Octets.digitsValue 10 (whole ++ fraction)
    let power := exponent - fraction.length
    let x : Fraction := if power < 0 then ⟨negative, n, Nat.pow 10 power.natAbs⟩
      else ⟨negative, n * Nat.pow 10 power.natAbs, 1⟩
    some (x, rest.drop used)

/-! ## Writing -/

/-- Digits with a point in front of the last `places`. -/
def withPoint (n places : Nat) : Octets :=
  let digits := Octets.ofNat n
  let digits := List.replicate (places + 1 - digits.length) '0' ++ digits
  let whole := digits.take (digits.length - places)
  if places = 0 then whole else whole ++ '.' :: digits.drop (digits.length - places)

/-- A fraction without its sign, with a number of places. -/
def fixed (places : Nat) (x : Fraction) : Octets :=
  withPoint (roundQuotient (x.top * Nat.pow 10 places) x.bottom) places

/-- A fraction times a power of ten, as a rounded integer. -/
def scaled (power : Int) (x : Fraction) : Nat :=
  if power < 0 then roundQuotient x.top (x.bottom * Nat.pow 10 power.natAbs)
  else roundQuotient (x.top * Nat.pow 10 power.natAbs) x.bottom

/-- The number of decimal digits of a fraction before its point, less one; it is negative for
fractions below one. -/
def magnitude (x : Fraction) : Int :=
  let rough : Int := ((Octets.ofNat x.top).length : Int) - (Octets.ofNat x.bottom).length
  let reaches (e : Int) : Bool :=
    if e < 0 then x.bottom ≤ x.top * Nat.pow 10 e.natAbs else x.bottom * Nat.pow 10 e.natAbs ≤ x.top
  if reaches rough then rough else rough - 1

/-- The first digits of a fraction, `places` behind the first, and the exponent of the first. -/
def leading (places : Nat) (x : Fraction) : Nat × Int :=
  if x.top = 0 then (0, 0)
  else
    let e := x.magnitude
    let n := x.scaled ((places : Int) - e)
    if n < Nat.pow 10 (places + 1) then (n, e) else (n / 10, e + 1)

/-- A fraction without its sign in front of an exponent. -/
def scientific (places : Nat) (x : Fraction) : Octets :=
  let (n, e) := x.leading places
  let digits := Octets.ofNat e.natAbs
  withPoint n places ++ 'e' :: (if e < 0 then '-' else '+')
    :: (List.replicate (2 - digits.length) '0' ++ digits)

/-- Digits without zeros at the end of the part behind the point. -/
def trimZeros (s : Octets) : Octets :=
  if !s.contains '.' then s
  else
    let trimmed := s.reverse.dropWhile (· == '0')
    (if trimmed.head? = some '.' then trimmed.drop 1 else trimmed).reverse

/-- A fraction without its sign, with a number of digits in all, in the shorter of both ways. -/
def general (digits : Nat) (keepZeros : Bool) (x : Fraction) : Octets :=
  let digits := max digits 1
  let (_, e) := x.leading (digits - 1)
  if -4 ≤ e && e < digits then
    let shown := x.fixed ((digits : Int) - 1 - e).toNat
    if keepZeros then shown else trimZeros shown
  else
    let shown := x.scientific (digits - 1)
    let mantissa := shown.takeWhile (· != 'e')
    if keepZeros then shown else trimZeros mantissa ++ shown.drop mantissa.length

end Fraction

end SfcProxy.Tool
