import TenderPricing.Markup.Review
import TenderPricing.Service.Body
import TenderPricing.Service.Reply
import TenderPricing.Store.Recalculation
/-!
The endpoints that price: sequences given by the caller and stored tenders.
-/
namespace TenderPricing
namespace Service

open Markup Pricing Store

/-- The percentages of a request; without them the fallback set applies. -/
def requestPercentages (given : Option (List (String × Float))) : Handling (Keyed String Float) :=
  Rates.inForce (given.map fun values => values.map fun (key, value) => (key, some value))

def validate (request : SequenceRequest) : Handling Json := do
  let errors ← (Logged.lift (review request.steps request.name)).mapError .number
  return .object [
    ("name", .string request.name),
    ("valid", .bool errors.isEmpty),
    ("errors", texts errors)]

def evaluationAnswer (name : String) (e : Evaluation Float) (scaleInvariant : Bool) : Json :=
  .object [
    ("name", .string name),
    ("base_value", .float e.baseValue),
    ("final_value", .float e.finalValue),
    ("coefficient", .float e.coefficient),
    ("markup_percentage", .float (markupPercentage e.baseValue e.finalValue)),
    ("scale_invariant", .bool scaleInvariant),
    ("step_results", floats e.results),
    ("step_details", .array (e.details.map stepDetailAnswer))]

def evaluateRequest (request : EvaluationRequest) : Handling Json := do
  let name := request.sequence.name
  let percentages ← requestPercentages request.percentages
  let steps ← (Logged.lift (sequenceOfRaw (.array request.sequence.steps) name)).mapError .load
  let e ← (Logged.lift
    (evaluate steps request.baseValue (.ofTable percentages) name)).mapError .evaluation
  let scaleInvariant ← (Logged.lift (isScaleInvariant steps)).mapError .evaluation
  return evaluationAnswer name e scaleInvariant

/-- Scale invariance of each sequence that is not empty. -/
def invariances : Sequences Float → Except EvaluationError Members
  | [] => .ok []
  | (type, steps) :: rest => do
    let scaleInvariant ← isScaleInvariant steps
    let others ← invariances rest
    return if steps.isEmpty then others else (type, .bool scaleInvariant) :: others

def coefficientsRequest (request : CoefficientRequest) : Handling Json := do
  let percentages ← requestPercentages request.percentages
  let raw := request.sequences.map fun (type, steps) => (type, Json.array steps)
  let sequences ← (Logged.lift (sequencesOfRaw (.object raw))).mapError .load
  let found ← (coefficients (.ofTable percentages) sequences).mapError .evaluation
  let invariant ← (Logged.lift (invariances sequences)).mapError .evaluation
  return .object [("coefficients", floatTable found), ("scale_invariant", .object invariant)]

def tenderParameters (t : Tables Float) (tender : String) : Handling Json := do
  let percentages ← (loadPercentages t tender).mapError .tender
  return .object [("tender_id", .string tender), ("parameters", floatTable percentages)]

def aggregationAnswer (tender : String) (a : Aggregation Float) (withItems : Bool) : Json :=
  .object ([("tender_id", .string tender)] ++ totalsMembers a ++
    [("by_parameter", .object (a.byParameter.map fun (key, p) =>
      (key, .object (parameterTotalMembers p))))] ++
    if withItems then [("items", .array (a.itemDetails.map itemDetailAnswer))] else [])

def tenderAggregation (t : Tables Float) (tender : String) (withItems : Bool) : Handling Json := do
  let ctx ← (loadContext t tender true).mapError .tender
  let a ← (aggregateLogged ctx.items ctx.tactic ctx.rates ctx.exclusions withItems).mapError
    .evaluation
  return aggregationAnswer tender a withItems

def tenderConsistency (t : Tables Float) (tender : String) : Handling Json := do
  let ctx ← (loadContext t tender true).mapError .tender
  let found ← (checkConsistency ctx.items ctx.tactic ctx.rates).mapError .evaluation
  return .object [
    ("tender_id", .string tender),
    ("consistent", .bool found.isEmpty),
    ("mismatches", .array (found.map fun m => .object (mismatchMembers m)))]

def summaryAnswer (s : Summary) : Json :=
  .object [
    ("tender_id", .string s.tender),
    ("status", .string "completed"),
    ("updated", .int s.updated),
    ("skipped", .int s.skipped),
    ("positions_updated", .int s.positionsUpdated)]

def queuedAnswer (tender task : String) : Json :=
  .object [
    ("tender_id", .string tender), ("status", .string "queued"), ("task_id", .string task)]

end Service
end TenderPricing
