import TenderPricing.Service.Body
import TenderPricing.Service.Reply
/-!
The endpoints that carry a tender to its next version: matching of rows and transfer of
supplementary positions.
-/
namespace TenderPricing
namespace Service

open Matching Store Transfer

def matchAnswer (m : Match Float) : Json :=
  .object (matchMembers m ++ [("label", .string m.score.label)])

def matchingMembers (positions : List (Position Float)) (rows : List (Row Float))
    (found : List (Match Float)) : Markup.Members :=
  [ ("matches", .array (found.map matchAnswer)),
    ("unmatched_old_position_ids", texts ((unmatchedPositions positions found).map (·.id))),
    ("unmatched_new_row_indices", .array ((unmatchedRows rows found).map fun i => .int (i : Nat))),
    ("additional_position_ids", texts ((positions.filter (·.isAdditional)).map (·.id))),
    ("statistics", statisticsAnswer (statistics positions rows found))]

def matchRequest (request : MatchRequest) : Handling Json := do
  let found ← assignLogged request.positions request.rows.rows request.rows.threshold
  return .object (matchingMembers request.positions request.rows.rows found)

/-- Matches rows against the stored positions of a tender. -/
def tenderMatch (t : Tables Float) (tender : String) (request : RowsRequest) : Handling Json := do
  let positions ← (Logged.lift (loadPositions t tender)).mapError .tender
  Logged.tell (.matchingTender request.rows.length tender)
  let found ← assignLogged positions request.rows request.threshold
  return .object (("tender_id", .string tender) :: matchingMembers positions request.rows found)

def transferRequest (request : TransferRequest) : Handling Json := do
  let moved ← (plan request.additional request.counterparts request.oldPositions
    request.newPositions).mapError .noWholePart
  return .object [("transfers", .array (moved.map relocationAnswer))]

end Service
end TenderPricing
