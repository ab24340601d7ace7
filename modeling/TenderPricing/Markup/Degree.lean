import TenderPricing.Markup.Evaluation
/-!
Scale invariance.

The value of a step is a monomial in the base value as long as it only multiplies and divides;
adding or subtracting keeps it one where both sides have the same degree.  A sequence of degree
one scales with its base.
-/
namespace TenderPricing
namespace Markup

variable {α : Type}

/-- The degree of what an index refers to, given the degrees of the steps before. -/
def degreeAt (degrees : List Int) (index : Int) : Except EvaluationError Int :=
  match reach? 1 degrees index with
  | some degree => .ok degree
  | none => .error .outOfRange

namespace Operand

/-- Rates and numbers do not depend on the base. -/
def degree (degrees : List Int) : Operand α → Except EvaluationError Int
  | step index => degreeAt degrees index
  | _ => .ok 0

end Operand

/-- The degree after further operations, none where terms of different degree meet. -/
def degreeAfter (degrees : List Int) :
    Int → List (Operation α) → Except EvaluationError (Option Int)
  | degree, [] => .ok (some degree)
  | degree, op :: rest => do
    let rhs ← op.operand.degree degrees
    match op.action with
    | .multiply => degreeAfter degrees (degree + rhs) rest
    | .divide => degreeAfter degrees (degree - rhs) rest
    | _ => if degree = rhs then degreeAfter degrees degree rest else .ok none

/-- The degree of the last step, given the degrees of the steps before. -/
def degreeFrom : List Int → List (Step α) → Except EvaluationError (Option Int)
  | degrees, [] => .ok (some (degrees.getLast?.getD 1))
  | degrees, step :: rest => do
    let start ← degreeAt degrees step.baseIndex
    match ← degreeAfter degrees start step.operations with
    | some degree => degreeFrom (degrees ++ [degree]) rest
    | none => return none

/-- The degree of a sequence in its base value. -/
def degree (steps : List (Step α)) : Except EvaluationError (Option Int) := degreeFrom [] steps

/-- Whether the priced value scales with the base value. -/
def isScaleInvariant (steps : List (Step α)) : Except EvaluationError Bool := do
  return (← degree steps) == some 1

end Markup
end TenderPricing
