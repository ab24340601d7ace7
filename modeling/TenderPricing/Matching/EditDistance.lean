import TenderPricing.Text.Blank
import TenderPricing.Text.LowerCase
/-!
Edit distance: how many characters have to be inserted, removed or replaced to turn one text into
another.

The distances of all beginnings of the second text form a row; each character of the first text
makes the next row from the one before.
-/
namespace TenderPricing
namespace Matching

/-- The cells of a row that follow `left`.  The row before stands in `previous`, from the cell
above `left` on. -/
def fillRow (c : Char) : Nat → List Char → List Nat → List Nat
  | left, d :: rest, diagonal :: above :: previous =>
    let cost := if c = d then 0 else 1
    let cell := min (above + 1) (min (left + 1) (diagonal + cost))
    cell :: fillRow c cell rest (above :: previous)
  | _, _, _ => []

/-- The row after one more character of the first text. -/
def nextRow (t : List Char) (previous : List Nat) (c : Char) : List Nat :=
  match previous with
  | [] => []
  | first :: _ => (first + 1) :: fillRow c (first + 1) t previous

def editDistance (s t : List Char) : Nat :=
  (s.foldl (nextRow t) (List.range (t.length + 1))).getLastD 0

/-- A text as distances compare it: small letters, no blanks at the ends. -/
def comparable (s : String) : List Char := Text.trimChars (Text.lowerChars s.toList)

/-- The distance of two texts as they are compared. -/
def textDistance (s t : String) : Nat := editDistance (comparable s) (comparable t)

example : editDistance ['a', 'b', 'c'] ['b', 'c', 'd'] = 2 := by decide

end Matching
end TenderPricing
