import TenderPricing.Matching.Assignment
/-!
What a matching leaves over, and its figures.
-/
namespace TenderPricing
namespace Matching

variable {α : Type}

/-- The client positions without a match: candidates for deletion. -/
def unmatchedPositions (positions : List (Position α)) (matched : List (Match α)) :
    List (Position α) :=
  positions.filter fun p => !(matched.map (·.positionId)).contains p.id && !p.isAdditional

/-- The rows without a match: candidates for creation. -/
def unmatchedRows (rows : List (Row α)) (matched : List (Match α)) : List Nat :=
  (List.range rows.length).filter fun i => !(matched.map (·.rowIndex)).contains (i : Int)

structure Statistics where
  totalOld : Nat
  totalNew : Nat
  automatic : Nat
  lowConfidence : Nat
  deleted : Nat
  created : Nat
  additional : Nat
  deriving DecidableEq, Repr

def statistics (positions : List (Position α)) (rows : List (Row α)) (matched : List (Match α)) :
    Statistics where
  totalOld := (candidates positions).length
  totalNew := rows.length
  automatic := matched.countP (·.kind = .automatic)
  lowConfidence := matched.countP (·.kind = .lowConfidence)
  deleted := (unmatchedPositions positions matched).length
  created := (unmatchedRows rows matched).length
  additional := positions.countP (·.isAdditional)

/-- The row of each matched position. -/
def rowOfPosition (matched : List (Match α)) : Keyed String Int :=
  Keyed.ofList (matched.map fun m => (m.positionId, m.rowIndex))

end Matching
end TenderPricing
