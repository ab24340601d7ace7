import TenderPricing.Pricing.Cost
import TenderPricing.Store.Tables
/-!
What a tender's prices are computed from: its tactic, percentages, distribution, exclusions and
items, as the tables hold them.
-/
namespace TenderPricing
namespace Store

open Matching Markup Pricing

variable {α : Type}

/-- Why the prices of a tender cannot be loaded or computed. -/
inductive TenderError where
  | tenderMissing (id : String)
  | noTactic (id : String)
  | tacticMissing (id : String)
  | tactic (error : LoadError)
  | distribution (fault : TargetFault)
  | evaluation (error : EvaluationError)

namespace TenderError

def message : TenderError → String
  | tenderMissing id => "Tender " ++ id ++ " not found"
  | noTactic id => "Tender " ++ id ++ " has no markup tactic"
  | tacticMissing id => "Markup tactic " ++ id ++ " not found"
  | tactic error => error.message
  | distribution fault => fault.message
  | evaluation error => error.message

end TenderError

structure Context (α : Type) where
  tender : String
  tactic : Tactic α
  percentages : Keyed String α
  distribution : Option Distribution := none
  exclusions : Exclusions := {}
  items : List (Item α) := []

namespace Context

def rates [Arithmetic α] (c : Context α) : Rates α := .ofTable c.percentages

end Context

namespace Tables

def tender? (t : Tables α) (id : String) : Option TenderRow := t.tenders.find? (·.id = id)

def tactic? (t : Tables α) (id : String) : Option TacticRow := t.tactics.find? (·.id = id)

def itemsOf (t : Tables α) (tender : String) : List (ItemRow α) := t.items.filter (·.isOf tender)

/-- The percentages of a tender by parameter key, none if no row is left once rows of unknown
parameters are dropped. -/
def percentagesOf (t : Tables α) (tender : String) : Option (List (String × Option α)) :=
  let rows := (t.percentages.filter (·.tender == some tender)).flatMap fun row =>
    (t.parameters.filter fun p => row.parameter == some p.id).map fun p => (p.key, row.value)
  if rows.isEmpty then none else some rows

def distributionOf? (t : Tables α) (tender : String) : Option DistributionRow :=
  t.distributions.find? (·.tender == some tender)

/-- The categories that a tender excludes for one kind of item. -/
def excludedCategories (t : Tables α) (tender kind : String) : List String :=
  (t.exclusions.filter fun row => row.tender == some tender && row.kind = kind).filterMap
    (·.category)

def exclusionsOf (t : Tables α) (tender : String) : Exclusions :=
  ⟨t.excludedCategories tender "works", t.excludedCategories tender "materials"⟩

/-- The positions of a tender by number; equal numbers keep the order of the table. -/
def positionsOf [Arithmetic α] (t : Tables α) (tender : String) : List (PositionRow α) :=
  (t.positions.filter (·.tender == some tender)).mergeSort PositionRow.notAfter

end Tables

/-- The tactic that a tender is priced by. -/
def findTactic (t : Tables α) (id : String) : Except TenderError TacticRow :=
  match t.tender? id with
  | none => .error (.tenderMissing id)
  | some tender =>
    let tactic := tender.tactic.getD ""
    if tactic = "" then .error (.noTactic id)
    else match t.tactic? tactic with
      | none => .error (.tacticMissing tactic)
      | some row => .ok row

variable [Arithmetic α]

def loadPercentages (t : Tables α) (id : String) : Logged α TenderError (Keyed String α) :=
  match t.tender? id with
  | none => .fail (.tenderMissing id)
  | some _ => Rates.inForce (t.percentagesOf id)

/-- The settings of a tender; where it has none the journal says so. -/
def loadDistribution (t : Tables α) (id : String) : Logged α TenderError (Option Distribution) :=
  match t.distributionOf? id with
  | some row => .lift ((Distribution.ofMembers row.targets).mapError .distribution |>.map some)
  | none => do
    Logged.tell (.noDistribution id)
    return none

def loadContext (t : Tables α) (id : String) (withItems : Bool) :
    Logged α TenderError (Context α) := do
  let row ← Logged.lift (findTactic t id)
  let tactic ← Logged.lift
    ((Tactic.ofRaw row.sequences (row.name.getD "") row.baseCosts).mapError .tactic)
  let percentages ← loadPercentages t id
  let distribution ← loadDistribution t id
  return {
    tender := id
    tactic, percentages, distribution
    exclusions := t.exclusionsOf id
    items := if withItems then (t.itemsOf id).map (·.toItem) else [] }

def loadPositions (t : Tables α) (id : String) : Except TenderError (List (Position α)) :=
  match t.tender? id with
  | none => .error (.tenderMissing id)
  | some _ => .ok ((t.positionsOf id).map (·.toPosition))

end Store
end TenderPricing
