import TenderPricing.Matching.Position
import TenderPricing.Matching.Similarity
import TenderPricing.Number.Notation
/-!
The match score of a position and a row: up to 30 points for the item number, 50 for the name, 10
for the unit and 10 for the quantity.
-/
namespace TenderPricing
namespace Matching

structure Score (α : Type) where
  itemNo : α
  name : α
  unit : α
  volume : α

namespace Score

variable {α : Type} [Arithmetic α]

def total (s : Score α) : α := s.itemNo + s.name + s.unit + s.volume

end Score

/-- An item number or unit as it is compared: trimmed, in small letters, a missing one empty. -/
def exactKey (value : Option String) : String := Text.lower (Text.trim (value.getD ""))

variable {α : Type} [Arithmetic α]

/-- All points for equal values, none otherwise. -/
def exactScore (a b : Option String) (points : α) : α :=
  if exactKey a = exactKey b then points else 0.0

def score (old : Position α) (new : Row α) : Score α where
  itemNo := exactScore old.itemNo new.itemNo 30.0
  name := nameSimilarity old.workName new.workName * 50.0
  unit := exactScore old.unitCode new.unitCode 10.0
  volume := volumeProximity old.volume new.volume * 10.0

/-- A match that needs no confirmation. -/
def isAutomatic (s : Score α) (threshold : α) : Bool := decide (threshold ≤ s.total)

/-- The threshold of automatic matches where none is set. -/
def defaultThreshold : α := 80.0

namespace Score

open Number in
/-- The score and its parts as the estimator sees them. -/
def label (s : Score Float) : String :=
  fixedText 1 s.total ++ "% (раздел: " ++ fixedText 0 s.itemNo ++ ", название: " ++
    fixedText 1 s.name ++ ", ед.: " ++ fixedText 0 s.unit ++ ", кол.: " ++
    fixedText 1 s.volume ++ ")"

end Score

end Matching
end TenderPricing
