/-!
# Ranges of code points

Properties of characters are given as ascending lists of ranges of code points.
-/

namespace SfcProxy

/-- Ranges of code points, both ends included. -/
abbrev Ranges := List (Nat × Nat)

/-- A code point lies in one of the ranges. -/
def Ranges.has (ranges : Ranges) (n : Nat) : Bool :=
  ranges.any fun (lo, hi) => lo ≤ n && n ≤ hi

end SfcProxy
