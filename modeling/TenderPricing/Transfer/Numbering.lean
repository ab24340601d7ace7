import TenderPricing.Number.Arithmetic
/-!
Numbers of supplementary positions.

Position 5 has the supplementary positions 5.1, 5.2 and so on up to 5.9.  Beyond that each number
halves the gap to 6 (5.95, 5.975), so that a supplementary position does not take the number of the
regular position that follows.  Over exact numbers the gap is never used up.
-/
namespace TenderPricing
namespace Transfer

variable {α : Type} [Arithmetic α]

/-- The first of the greatest of some numbers. -/
def greatest (first : α) (others : List α) : α :=
  others.foldl (fun best x => if best < x then x else best) first

/-- The next tenth above `last`, whose whole part is `whole`. -/
def nextTenth (last : α) (whole : Int) : α :=
  Arithmetic.ofInt whole +
    Arithmetic.ofInt (Arithmetic.round ((last - Arithmetic.ofInt whole + 0.1) * 10.0)) / 10.0

/-- Halfway from `last` to the whole number that follows `whole`. -/
def halfway (last : α) (whole : Int) : α := (last + Arithmetic.ofInt whole + 1.0) / 2.0

/-- The next free number after the numbers that a parent's supplementary positions have. -/
def nextNumber (parent : α) (existing : List α) : Except NoWholePart α :=
  match existing with
  | [] => .ok (parent + 0.1)
  | first :: others => do
    let last := greatest first others
    let whole ← Arithmetic.floor last
    let tenth := nextTenth last whole
    let reached ← Arithmetic.floor tenth
    return if whole + 1 ≤ reached then halfway last whole else tenth

/-- Several numbers in a row, each of them taken before the next is chosen. -/
def nextNumbers (parent : α) : Nat → List α → Except NoWholePart (List α)
  | 0, _ => .ok []
  | count + 1, existing => do
    let number ← nextNumber parent existing
    let later ← nextNumbers parent count (existing ++ [number])
    return number :: later

end Transfer
end TenderPricing
