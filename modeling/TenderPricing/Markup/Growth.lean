import TenderPricing.Markup.Step
/-!
Growth exclusion.

Where a cost category is excluded from subcontract growth, every step that uses the growth
parameter is dropped.  A reference to a dropped step becomes a reference to what that step started
from, so dropping a step amounts to letting its value pass through unchanged.
-/
namespace TenderPricing
namespace Markup

variable {α : Type}

namespace Step

def usesKey (key : String) (step : Step α) : Bool := step.parameterKeys.contains key

end Step

/-- Where a reference leads once steps have been dropped; `moved` holds the new reference of each
step seen so far. -/
def newReference (moved : List Int) (index : Int) : Int :=
  if 0 ≤ index then (moved[index.toNat]?).getD baseReference else baseReference

namespace Operand

def redirect (moved : List Int) : Operand α → Operand α
  | step index => .step (newReference moved index)
  | operand => operand

end Operand

namespace Step

/-- The same step with its references led to where they now stand. -/
def redirect (moved : List Int) (s : Step α) : Step α :=
  { s with
    baseIndex := newReference moved s.baseIndex
    operations := s.operations.map fun op => { op with operand := op.operand.redirect moved } }

end Step

/-- Drops steps that use `key`, after steps of which `kept` remain and whose new references are
`moved`. -/
def dropFrom (key : String) (moved : List Int) (kept : Nat) : List (Step α) → List (Step α)
  | [] => []
  | step :: rest =>
    if step.usesKey key then
      dropFrom key (moved ++ [newReference moved step.baseIndex]) kept rest
    else step.redirect moved :: dropFrom key (moved ++ [(kept : Int)]) (kept + 1) rest

/-- Drops every step that uses `key`. -/
def dropSteps (key : String) (steps : List (Step α)) : List (Step α) := dropFrom key [] 0 steps

/-- The growth parameter of an item type; only subcontracted items have one. -/
def growthParameter? : String → Option String
  | "суб-раб" => some "subcontract_works_cost_growth"
  | "суб-мат" => some "subcontract_materials_cost_growth"
  | _ => none

/-- The sequence of an item type without its growth. -/
def withoutGrowth (steps : List (Step α)) (itemType : String) : List (Step α) :=
  match growthParameter? itemType with
  | some key => dropSteps key steps
  | none => steps

end Markup
end TenderPricing
