import TenderPricing.Markup.Rates
import TenderPricing.Pricing.ItemType
/-!
Items of a bill of quantities, as far as prices depend on them.
-/
namespace TenderPricing
namespace Pricing

variable {α : Type}

structure Item (α : Type) where
  id : String
  itemType : String
  totalAmount : Option α := none
  costCategory : Option String := none
  materialCost : Option α := none
  workCost : Option α := none
  coefficient : Option α := none

/-- The largest difference between amounts that are taken for equal. -/
def tolerance [Arithmetic α] : α := 0.01

namespace Item

/-- The amount before markup; nothing is zero. -/
def baseAmount [Arithmetic α] (i : Item α) : α :=
  match i.totalAmount with
  | some amount => Markup.Rates.orZero amount
  | none => 0.0

/-- The stored cost on the item's own axis. -/
def storedCost (i : Item α) : Option α :=
  match ownAxis i.itemType with
  | .material => i.materialCost
  | .work => i.workCost

/-- A stored number that counts as given: neither missing nor zero. -/
def given? [Arithmetic α] : Option α → Option α
  | some value => if value == 0.0 then none else some value
  | none => none

/-- Whether the stored cost no longer fits the amount and the stored coefficient. -/
def needsRecalculation [Arithmetic α] (i : Item α) : Bool :=
  match given? i.totalAmount with
  | none => false
  | some amount => match given? i.storedCost, given? i.coefficient with
    | some stored, some coefficient =>
      decide (tolerance < Arithmetic.abs (amount * coefficient - stored))
    | _, _ => true

end Item

/-- Cost categories that are excluded from subcontract growth. -/
structure Exclusions where
  works : List String := []
  materials : List String := []

namespace Exclusions

/-- Only subcontracted items with a category can be excluded. -/
def covers (e : Exclusions) (i : Item α) : Bool :=
  match i.costCategory with
  | none => false
  | some category =>
    if category = "" then false
    else match ItemType.ofLabel? i.itemType with
      | some .subcontractWork => e.works.contains category
      | some .subcontractMaterial => e.materials.contains category
      | _ => false

end Exclusions

end Pricing
end TenderPricing
