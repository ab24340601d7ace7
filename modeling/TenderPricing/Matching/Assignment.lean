import TenderPricing.Journal.Logged
import TenderPricing.Keyed
import TenderPricing.Matching.Score
/-!
Assignment of new rows to old positions.

Rows choose in their order: each takes the best position that no earlier row took, if it is good
enough.  Supplementary positions take no part.
-/
namespace TenderPricing
namespace Matching

variable {α : Type}

inductive MatchKind where
  /-- applied without confirmation -/
  | automatic
  | lowConfidence
  /-- A match that was made in another way, by its word. -/
  | other (word : String)
  deriving DecidableEq, Repr

namespace MatchKind

def word : MatchKind → String
  | automatic => "auto"
  | lowConfidence => "low_confidence"
  | other word => word

def ofWord : String → MatchKind
  | "auto" => automatic
  | "low_confidence" => lowConfidence
  | word => other word

end MatchKind

structure Match (α : Type) where
  positionId : String
  rowIndex : Int
  score : Score α
  kind : MatchKind

/-- The positions that a row may be matched to. -/
def candidates (positions : List (Position α)) : List (Position α) :=
  positions.filter fun p => !p.isAdditional

variable [Arithmetic α]

/-- What a match must score more than. -/
def scoreFloor : α := 50.0

/-- Keeps the better of a choice and one more position; a tie keeps the choice. -/
def better (row : Row α) (chosen : Option (Position α × Score α)) (p : Position α) :
    Option (Position α × Score α) :=
  match chosen with
  | none => some (p, score p row)
  | some (q, best) => if best.total < (score p row).total then some (p, score p row) else some (q, best)

/-- The first position of those that score best against a row. -/
def bestFor (row : Row α) (free : List (Position α)) : Option (Position α × Score α) :=
  free.foldl (better row) none

/-- Assigns the rows from `index` on to positions that are still free. -/
def assignFrom (threshold : α) : Nat → List (Position α) → List (Row α) → List (Match α)
  | _, _, [] => []
  | index, free, row :: rest =>
    match bestFor row free with
    | none => assignFrom threshold (index + 1) free rest
    | some (p, best) =>
      if best.total ≤ scoreFloor then assignFrom threshold (index + 1) free rest
      else
        ⟨p.id, index, best, if isAutomatic best threshold then .automatic else .lowConfidence⟩ ::
          assignFrom threshold (index + 1) (free.filter fun q => q.id != p.id) rest

def assign (positions : List (Position α)) (rows : List (Row α)) (threshold : α) :
    List (Match α) :=
  assignFrom threshold 0 (candidates positions) rows

/-- `assign`, with a notice of how many rows found a position. -/
def assignLogged {ε : Type} (positions : List (Position α)) (rows : List (Row α)) (threshold : α) :
    Logged α ε (List (Match α)) := do
  let found := assign positions rows threshold
  Logged.tell (.matched found.length rows.length (candidates positions).length threshold)
  return found

end Matching
end TenderPricing
