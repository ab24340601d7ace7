import TenderPricing.Matching.Position
import TenderPricing.Pricing.Item
import TenderPricing.Pricing.ItemType
import TenderPricing.Pricing.Tactic
/-!
The tables of the service.

Rows hold the columns that prices, matches and access depend on.  A table keeps its rows in the
order in which queries return them.
-/
namespace TenderPricing
namespace Store

open Matching Pricing Markup

structure RoleRow where
  id : Int
  name : String

structure UserRow where
  id : String
  role : Option Int
  isActive : Bool

structure TenderRow where
  id : String
  tactic : Option String

/-- A tactic with its steps in persisted form. -/
structure TacticRow where
  id : String
  name : Option String
  sequences : Json
  baseCosts : Json

structure ParameterRow where
  id : String
  key : String

/-- The percentage of a parameter in a tender. -/
structure PercentageRow (α : Type) where
  tender : Option String
  parameter : Option String
  value : Option α

/-- The axis settings of a tender, by column. -/
structure DistributionRow where
  tender : Option String
  targets : Members

/-- A cost category that is excluded from subcontract growth, for one kind of item. -/
structure ExclusionRow where
  tender : Option String
  category : Option String
  kind : String

structure ItemRow (α : Type) extends Item α where
  tender : Option String
  position : Option String
  /-- When the row was last changed, by the clock of the database. -/
  updatedAt : Option Int := none

structure PositionRow (α : Type) where
  id : String
  tender : Option String
  itemNo : Option String := none
  workName : Option String := none
  unitCode : Option String := none
  volume : Option α := none
  isAdditional : Bool := false
  number : Option α := none
  level : Option Int := none
  parentId : Option String := none
  materialTotal : Option α := none
  workTotal : Option α := none

structure Tables (α : Type) where
  roles : List RoleRow := []
  users : List UserRow := []
  tenders : List TenderRow := []
  tactics : List TacticRow := []
  parameters : List ParameterRow := []
  percentages : List (PercentageRow α) := []
  distributions : List DistributionRow := []
  exclusions : List ExclusionRow := []
  items : List (ItemRow α) := []
  positions : List (PositionRow α) := []

variable {α : Type}

namespace ItemRow

/-- Whether the row belongs to a tender. -/
def isOf (tender : String) (r : ItemRow α) : Bool := r.tender == some tender

/-- The row with the cost of its item, rounded to cents.  The coefficient is kept as it is. -/
def withCost [Arithmetic α] (c : ItemCost α) (r : ItemRow α) : ItemRow α :=
  { r with
    materialCost := some (Arithmetic.roundToCents c.material)
    workCost := some (Arithmetic.roundToCents c.work)
    coefficient := some c.coefficient }

end ItemRow

namespace PositionRow

/-- The row with the costs of its items, rounded to cents. -/
def withTotals [Arithmetic α] (s : Split α) (r : PositionRow α) : PositionRow α :=
  { r with
    materialTotal := some (Arithmetic.roundToCents s.material)
    workTotal := some (Arithmetic.roundToCents s.work) }

/-- The position as the matcher sees it. -/
def toPosition [Arithmetic α] (r : PositionRow α) : Position α where
  id := r.id
  itemNo := r.itemNo
  workName := r.workName
  unitCode := r.unitCode
  volume := r.volume
  isAdditional := r.isAdditional
  number := Rates.orZero (r.number.getD 0.0)
  level := r.level.getD 0
  parentId := r.parentId

/-- The order of positions by number; rows without one come last. -/
def notAfter [Arithmetic α] (r s : PositionRow α) : Bool :=
  match r.number, s.number with
  | some a, some b => !decide (b < a)
  | none, some _ => false
  | _, none => true

end PositionRow

end Store
end TenderPricing
