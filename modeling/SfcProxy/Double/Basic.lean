/-!
# Double precision numbers

Numbers with a fraction or an exponent are read as binary64 values. A finite value is kept as
its sign, mantissa and binary exponent, so that addition, rounding and printing are exact
integer arithmetic.

## Main definitions

* `Double`: the values of binary64
* `Double.round`: the value nearest to a quotient, ties to the even mantissa
* `Double.ofDecimal`: the value nearest to a decimal
* `Double.addInt`: the rounded sum of a value and an integer
* `Double.integral?`: the integer that a value is equal to
* `Double.floorTimes`: a value in a smaller unit
-/

namespace SfcProxy

/-- A binary64 value; `finite negative m e` stands for `± m · 2 ^ e`. -/
inductive Double where
  | finite (negative : Bool) (mantissa : Nat) (exponent : Int)
  | infinite (negative : Bool)
  | nan
  deriving DecidableEq

namespace Double

/-- The least binary exponent of a finite value. -/
def leastExponent : Int := -1074

/-- The greatest binary exponent of a finite value. -/
def greatestExponent : Int := 971

/-- `⌊num / den / 2 ^ e⌋` together with what the division leaves and its divisor. -/
def scaledDiv (num den : Nat) (e : Int) : Nat × Nat × Nat :=
  let num := if e < 0 then num * Nat.pow 2 e.natAbs else num
  let den := if e < 0 then den else den * Nat.pow 2 e.natAbs
  (num / den, num % den, den)

/-- The greatest exponent, not below the least one, at which `num / den` keeps 53 binary digits. -/
def scale (num den : Nat) : Int :=
  let guess : Int := (Nat.log2 num : Int) - (Nat.log2 den : Int) - 52
  let e := if (scaledDiv num den guess).1 < Nat.pow 2 52 then guess - 1 else guess
  max e leastExponent

/-- The value nearest to `num / den`, an exact tie going to the even mantissa. -/
def round (negative : Bool) (num den : Nat) : Double :=
  if num = 0 then finite negative 0 0
  else
    let e := scale num den
    let (q, r, d) := scaledDiv num den e
    let q := if 2 * r > d ∨ (2 * r = d ∧ q % 2 = 1) then q + 1 else q
    -- Rounding up may carry into a further digit.
    let (q, e) := if q = Nat.pow 2 53 then (Nat.pow 2 52, e + 1) else (q, e)
    if q = 0 then finite negative 0 0
    else if e > greatestExponent then infinite negative
    else finite negative q e

/-- The value nearest to `± digits · 10 ^ exponent`; `count` is the number of digits written.
Exponents far outside the range of finite values are decided without computing the power. -/
def ofDecimal (negative : Bool) (digits count : Nat) (exponent : Int) : Double :=
  if digits = 0 ∨ exponent + count < -400 then finite negative 0 0
  else if exponent > 400 then infinite negative
  else if exponent < 0 then round negative digits (Nat.pow 10 exponent.natAbs)
  else round negative (digits * Nat.pow 10 exponent.natAbs) 1

/-- The value nearest to an integer. -/
def ofInt (n : Int) : Double :=
  round (n < 0) n.natAbs 1

/-- The mantissa with its sign. -/
def signed (negative : Bool) (mantissa : Nat) : Int :=
  if negative then -(mantissa : Int) else mantissa

/-- The rounded sum of two values. Opposite infinities have none. -/
def add : Double → Double → Double
  | finite s m e, finite t n f =>
    let low := min e f
    let sum :=
      signed s (m * Nat.pow 2 (e - low).natAbs) + signed t (n * Nat.pow 2 (f - low).natAbs)
    if sum = 0 then finite (s && t) 0 0
    else if low < 0 then round (sum < 0) sum.natAbs (Nat.pow 2 low.natAbs)
    else round (sum < 0) (sum.natAbs * Nat.pow 2 low.natAbs) 1
  | finite _ _ _, y => y
  | infinite s, infinite t => if s = t then infinite s else nan
  | infinite s, finite _ _ _ => infinite s
  | _, nan => nan
  | nan, _ => nan

/-- The rounded sum of a value and an integer, which is rounded first. -/
def addInt (x : Double) (n : Int) : Double :=
  x.add (ofInt n)

/-- The value is zero, of either sign, or above. -/
def isNonneg : Double → Bool
  | finite s m _ => !s || m == 0
  | infinite s => !s
  | nan => false

/-- The integer that a value is equal to, if there is one. -/
def integral? : Double → Option Int
  | finite s m e =>
    if 0 ≤ e then some (signed s (m * Nat.pow 2 e.natAbs))
    else if m % Nat.pow 2 e.natAbs = 0 then some (signed s (m / Nat.pow 2 e.natAbs))
    else none
  | _ => none

/-- The greatest integer not above `factor` times a value; zero for values that are negative or
not finite. -/
def floorTimes (factor : Nat) : Double → Nat
  | finite false m e =>
    if 0 ≤ e then factor * m * Nat.pow 2 e.natAbs else factor * m / Nat.pow 2 e.natAbs
  | _ => 0

end Double

end SfcProxy
