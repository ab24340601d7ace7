/-!
Sets of characters given by closed ranges of code points.

A table lists its ranges in ascending order and apart from each other, so a search may stop at the
first range that starts above the character.
-/
namespace TenderPricing.Text

/-- Whether a code point lies in one of the ranges, given in ascending order. -/
def inRanges : List (Nat × Nat) → Nat → Bool
  | [], _ => false
  | (first, last) :: rest, n => if n < first then false else n ≤ last || inRanges rest n

end TenderPricing.Text
