import TenderPricing.Markup.Coefficient
import TenderPricing.Markup.Growth
/-!
Markup tactics: a sequence for each item type, under a name.
-/
namespace TenderPricing
namespace Pricing

open Markup

variable {α : Type}

structure Tactic (α : Type) where
  name : String := ""
  sequences : Sequences α := []
  baseCosts : Members := []

namespace Tactic

/-- The sequence of an item type, empty where there is none. -/
def sequenceFor (t : Tactic α) (itemType : String) : List (Step α) :=
  (t.sequences.lookup itemType).getD []

/-- Reads a tactic from its raw sequences. -/
def ofRaw [Arithmetic α] (sequences : Json) (name : String) (baseCosts : Json) :
    Except LoadError (Tactic α) := do
  let parsed ← sequencesOfRaw sequences
  let costs ← entriesOfRaw baseCosts
  return ⟨name, parsed, costs⟩

end Tactic

/-- The coefficient of each item type that has a sequence. -/
def coefficients [Arithmetic α] (rates : Rates α) :
    Sequences α → Logged α EvaluationError (Keyed String α)
  | [] => pure []
  | (itemType, steps) :: rest =>
    if steps.isEmpty then coefficients rates rest
    else do
      let value ← coefficient steps rates itemType
      let others ← coefficients rates rest
      return (itemType, value) :: others

end Pricing
end TenderPricing
