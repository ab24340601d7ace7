import TenderPricing.Markup.Fault
/-!
The references of a sequence.

A step may refer to the base value and to the steps before it.  `problems` lists what is wrong
with a sequence, step by step; a sequence without problems is `Valid`.
-/
namespace TenderPricing
namespace Markup

variable {α : Type}

/-- A fault of a sequence and the step that has it. -/
structure Problem where
  step : Nat
  fault : Fault

namespace Problem

def locate (sequence : String) (p : Problem) : ConfigError := ⟨sequence, some p.step, p.fault⟩

end Problem

/-- Whether the step at a position may refer to `index`. -/
def mayRefer (position : Nat) (index : Int) : Bool :=
  baseReference ≤ index && index < position

namespace Operation

/-- What is wrong with the operation in slot `slot` of the step at a position. -/
def faults (position slot : Nat) (op : Operation α) : List Fault :=
  (match op.action with
    | .other word => [.unknownAction (.string word)]
    | _ => []) ++
  (match op.operand with
    | .step index => if mayRefer position index then [] else [.badStepIndex slot index]
    | _ => [])

end Operation

namespace Step

def faults (position : Nat) (step : Step α) : List Fault :=
  (if mayRefer position step.baseIndex then [] else [.badBaseIndex step.baseIndex]) ++
  (if step.operations.isEmpty then [.noFirstOperation] else []) ++
  (if step.operations.length > maxOperations then [.tooManyOperations step.operations.length]
    else []) ++
  (step.operations.zipIdx 1).flatMap fun (op, slot) => op.faults position slot

end Step

/-- Every problem of a sequence whose first step is at `position`. -/
def problemsFrom (position : Nat) : List (Step α) → List Problem
  | [] => []
  | step :: rest => (step.faults position).map (⟨position, ·⟩) ++ problemsFrom (position + 1) rest

def problems (steps : List (Step α)) : List Problem := problemsFrom 0 steps

/-- A sequence that passes the check. -/
def Valid (steps : List (Step α)) : Prop := problems steps = []

/-- The problems in words. -/
def problemMessages (steps : List (Step α)) (sequence : String) : List String :=
  (problems steps).map fun p => (p.locate sequence).message

/-- Refuses a sequence for its first problem. -/
def checkValid (steps : List (Step α)) (sequence : String) : Except ConfigError Unit :=
  match problems steps with
  | [] => .ok ()
  | p :: _ => .error (p.locate sequence)

end Markup
end TenderPricing
