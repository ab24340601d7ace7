import TenderPricing.Markup.RawStep
/-!
Review of raw steps.

Where a loader stops at the first fault, a review lists them: every step that cannot be read, or,
when all can be, every problem of the sequence.
-/
namespace TenderPricing
namespace Markup

variable {α : Type}

/-- Reads raw steps from a position on; steps that cannot be read give their fault instead. -/
def readEach [Arithmetic α] (sequence : String) (position : Nat) :
    List Json → Except NumberFault (List ConfigError × List (Step α))
  | [] => .ok ([], [])
  | raw :: rest => match (Step.ofRaw raw sequence position : Except LoadError (Step α)) with
    | .error (.number fault) => .error fault
    | .error (.config error) => do
      let (errors, steps) ← readEach sequence (position + 1) rest
      return (error :: errors, steps)
    | .error _ => readEach sequence (position + 1) rest
    | .ok step => do
      let (errors, steps) ← readEach sequence (position + 1) rest
      return (errors, step :: steps)

/-- Everything that is wrong with raw steps, in words. -/
def review (raw : List Json) (sequence : String) : Except NumberFault (List String) := do
  let (errors, steps) ← (readEach sequence 0 raw : Except NumberFault (_ × List (Step Float)))
  return if errors.isEmpty then problemMessages steps sequence else errors.map (·.message)

end Markup
end TenderPricing
