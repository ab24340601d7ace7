import TenderPricing.Pricing.Distribution
import TenderPricing.Pricing.Item
import TenderPricing.Pricing.Tactic
/-!
The commercial cost of one item.

An item is priced by the sequence of its type.  A type without a sequence has no commercial cost,
and an amount that is not positive is passed through unpriced.
-/
namespace TenderPricing
namespace Pricing

open Markup

variable {α : Type} [Arithmetic α]

/-- The steps that price an item: those of its type, without growth where that is excluded. -/
def pricingSteps (tactic : Tactic α) (itemType : String) (excluded : Bool) : List (Step α) :=
  let steps := tactic.sequenceFor itemType
  if excluded then withoutGrowth steps itemType else steps

def itemCost (item : Item α) (tactic : Tactic α) (rates : Rates α)
    (distribution : Option Distribution) (excluded : Bool) :
    Logged α EvaluationError (Option (ItemCost α)) :=
  if (tactic.sequenceFor item.itemType).isEmpty then pure none
  else
    let base := item.baseAmount
    if base ≤ 0.0 then do
      let split ← distributeLogged base base item.itemType distribution
      return some (.ofSplit split 1.0)
    else do
      let evaluation ← Logged.lift
        (evaluate (pricingSteps tactic item.itemType excluded) base rates item.itemType)
      let split ← distributeLogged base evaluation.finalValue item.itemType distribution
      return some (.ofSplit split evaluation.coefficient)

end Pricing
end TenderPricing
