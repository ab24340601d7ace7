import TenderPricing.Journal.Logged
import TenderPricing.Markup.Degree
/-!
The coefficient of a sequence: its value for a probe of one hundred, divided by the probe.  For a
sequence that does not scale with its base the coefficient holds for the probe only, and the
journal says so.
-/
namespace TenderPricing
namespace Markup

variable {α : Type}

/-- The base that a sequence is probed with. -/
def probeBase [Arithmetic α] : α := 100.0

def coefficient [Arithmetic α] (steps : List (Step α)) (rates : Rates α) (sequence : String) :
    Logged α EvaluationError α := do
  Logged.lift ((checkValid steps sequence).mapError .config)
  let invariant ← Logged.lift (isScaleInvariant steps)
  Logged.tellIf (!steps.isEmpty && !invariant) (.dependsOnBase sequence)
  let evaluation ← Logged.lift (evaluate steps probeBase rates sequence)
  return evaluation.finalValue / probeBase

end Markup
end TenderPricing
