import TenderPricing.Matching.Outcome
import TenderPricing.Pricing.Aggregation
import TenderPricing.Pricing.Consistency
import TenderPricing.Transfer.Plan
/-!
Results as the members of an answer.
-/
namespace TenderPricing
namespace Service

open Markup Pricing Matching Transfer

def textOrNull : Option String → Json
  | some s => .string s
  | none => .null

def floatOrNull : Option Float → Json
  | some x => .float x
  | none => .null

def texts (values : List String) : Json := .array (values.map .string)

def floats (values : List Float) : Json := .array (values.map .float)

/-- Values by key, in their order. -/
def floatTable (table : Keyed String Float) : Json :=
  .object (table.map fun (key, value) => (key, .float value))

def stepDetailAnswer (d : StepDetail Float) : Json :=
  .object [
    ("step_index", .int d.stepIndex),
    ("step_name", d.stepName),
    ("parameter_keys", texts d.parameterKeys),
    ("base_value", .float d.baseValue),
    ("result", .float d.result),
    ("markup_amount", .float d.markupAmount)]

def directCostsAnswer (d : DirectCosts Float) : Json :=
  .object [
    ("subcontract_works", .float d.subcontractWorks),
    ("subcontract_materials", .float d.subcontractMaterials),
    ("works", .float d.works),
    ("materials", .float d.materials),
    ("works_comp", .float d.workComponents),
    ("materials_comp", .float d.materialComponents),
    ("total", .float d.total)]

def parameterTotalMembers (p : ParameterTotal Float) : Members :=
  [ ("total_markup_amount", .float p.markupAmount),
    ("item_count", .int p.itemCount),
    ("steps_count", .int p.stepsCount),
    ("by_item_type", floatTable p.byItemType)]

def totalsMembers (a : Aggregation Float) : Members :=
  [ ("direct_costs", directCostsAnswer a.directCosts),
    ("total_base_amount", .float a.totalBase),
    ("total_commercial_cost", .float a.totalCommercial),
    ("total_markup_amount", .float a.totalMarkup)]

def itemDetailAnswer (d : ItemDetail Float) : Json :=
  .object [
    ("item_id", .string d.itemId),
    ("boq_item_type", .string d.itemType),
    ("base_amount", .float d.baseAmount),
    ("commercial_cost", .float d.commercialCost),
    ("step_details", .array (d.steps.map stepDetailAnswer))]

def mismatchMembers (m : Mismatch Float) : Members :=
  [ ("item_id", .string m.itemId),
    ("boq_item_type", .string m.itemType),
    ("base_amount", .float m.baseAmount),
    ("via_coefficient", .float m.viaCoefficient),
    ("via_sequence", .float m.viaSequence)]

def scoreAnswer (s : Score Float) : Json :=
  .object [
    ("item_no", .float s.itemNo),
    ("name", .float s.name),
    ("unit", .float s.unit),
    ("volume", .float s.volume),
    ("total", .float s.total)]

def matchMembers (m : Match Float) : Members :=
  [ ("old_position_id", .string m.positionId),
    ("new_row_index", .int m.rowIndex),
    ("match_type", .string m.kind.word),
    ("score", scoreAnswer m.score)]

def statisticsAnswer (s : Statistics) : Json :=
  .object [
    ("total_old", .int s.totalOld),
    ("total_new", .int s.totalNew),
    ("auto_matched", .int s.automatic),
    ("low_confidence", .int s.lowConfidence),
    ("deleted", .int s.deleted),
    ("new", .int s.created),
    ("additional_works", .int s.additional)]

def relocationAnswer (r : Relocation Float) : Json :=
  .object [
    ("position_id", .string r.positionId),
    ("original_parent_id", textOrNull r.oldParent),
    ("new_parent_id", textOrNull (r.placement.map (·.parentId))),
    ("reason", .string r.reason),
    ("position_number", floatOrNull (r.placement.map (·.number))),
    ("success", .bool r.succeeds)]

end Service
end TenderPricing
