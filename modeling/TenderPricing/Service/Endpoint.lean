/-!
The endpoints of the service and their paths.
-/
namespace TenderPricing
namespace Service

inductive Endpoint where
  | health
  | validate
  | evaluate
  | coefficients
  | parameters (tender : String)
  | recalculate (tender : String)
  | aggregation (tender : String)
  | consistency (tender : String)
  | matchRows
  | matchTender (tender : String)
  | transfers
  deriving DecidableEq, Repr

namespace Endpoint

/-- The one method that an endpoint answers. -/
def method : Endpoint → String
  | health | parameters _ | aggregation _ | consistency _ => "GET"
  | _ => "POST"

def ofSegments? : List String → Option Endpoint
  | ["", "health"] => some health
  | ["", "api", "markup", "validate"] => some validate
  | ["", "api", "markup", "evaluate"] => some evaluate
  | ["", "api", "markup", "coefficients"] => some coefficients
  | ["", "api", "matching", "match"] => some matchRows
  | ["", "api", "matching", "transfers"] => some transfers
  | ["", "api", area, "tenders", tender, last] =>
    if tender = "" then none
    else match area, last with
      | "markup", "parameters" => some (parameters tender)
      | "markup", "recalculate" => some (recalculate tender)
      | "markup", "aggregation" => some (aggregation tender)
      | "markup", "consistency" => some (consistency tender)
      | "matching", "match" => some (matchTender tender)
      | _, _ => none
  | _ => none

/-- The endpoint of a path.  Slashes at the end of a path do not matter. -/
def ofPath? (path : String) : Option Endpoint :=
  let chars := path.toList.reverse.dropWhile (· = '/')
  ofSegments? ((chars.reverse.splitOn '/').map String.ofList)

end Endpoint

end Service
end TenderPricing
