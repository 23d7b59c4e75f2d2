import BitLogic.Text.Basic

/-!
# Ranges of code points

A property of code points is a list of closed ranges in ascending order, and
membership is decided by looking for a range that holds the code point.

## Main definitions

* `Ranges`: A list of closed ranges.
* `Ranges.has`: Some range holds the code point.
-/

namespace BitLogic

/-- Closed ranges of code points, in ascending order. -/
abbrev Ranges := List (Nat × Nat)

/-- Some range holds the code point. -/
def Ranges.has (rs : Ranges) (c : Nat) : Bool := rs.any fun (lo, hi) => lo ≤ c && c ≤ hi

end BitLogic
