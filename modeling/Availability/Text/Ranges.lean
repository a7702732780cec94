/-!
# Sets of code points given by ranges

A property of characters is a list of closed ranges of code points in ascending order.
-/
namespace Availability.Text

/-- Whether a code point lies in one of the closed ranges. -/
def inRanges (n : Nat) : List (Nat × Nat) → Bool
  | [] => false
  | (lo, hi) :: rest => (lo ≤ n && n ≤ hi) || inRanges n rest

end Availability.Text
