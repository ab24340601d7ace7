import TenderPricing.Json.Numeric
import TenderPricing.Markup.Step
/-!
What can be wrong with a markup sequence.

A `Fault` is the cause; a `ConfigError` adds the sequence and the step where it was found.  Faults
arise when raw steps are read, when the references of a sequence are checked, and, for sequences
that were never checked, when it is evaluated.
-/
namespace TenderPricing
namespace Markup

inductive Fault where
  | notAList (got : Json)
  | notAnObject (got : Json)
  | noBaseIndex (got : Json)
  | tooManySlots (slot : Nat)
  | noFirstOperation
  | noAction (slot : Nat)
  | noOperandType (slot : Nat)
  | unknownAction (got : Json)
  | noRateKey (slot : Nat) (got : Json)
  | unknownForm (got : Json)
  | noStepIndex (slot : Nat) (got : Json)
  | notANumber (slot : Nat) (got : Json)
  | unknownOperandType (got : Json)
  | badBaseIndex (index : Int)
  | tooManyOperations (count : Nat)
  | badStepIndex (slot : Nat) (index : Int)
  | unavailableStep (index : Int) (available : Nat)
  | unsupportedOperand

/-- The member that holds the action of a slot. -/
def actionKey (slot : Nat) : String := "action" ++ toString slot

/-- A member that belongs to the operand of a slot. -/
def operandKey (slot : Nat) (part : String) : String := "operand" ++ toString slot ++ part

namespace Fault

def text : Fault → String
  | notAList _ => "expected a list of steps"
  | notAnObject got => "expected an object, got " ++ got.kind
  | noBaseIndex _ => "missing or invalid baseIndex"
  | tooManySlots _ | tooManyOperations _ =>
    "at most " ++ toString maxOperations ++ " operations per step"
  | noFirstOperation => "missing required first operation"
  | noAction slot => actionKey slot ++ " is missing"
  | noOperandType slot => operandKey slot "Type" ++ " is missing"
  | unknownAction got => "unknown operator '" ++ got.text ++ "'"
  | noRateKey slot _ => operandKey slot " has no markup key"
  | unknownForm got => "unknown multiply format '" ++ got.text ++ "'"
  | noStepIndex slot _ => operandKey slot " has no step index"
  | notANumber slot got => operandKey slot " is not a number (" ++ got.display ++ ")"
  | unknownOperandType got => "unknown operand type '" ++ got.text ++ "'"
  | badBaseIndex index => "invalid baseIndex (" ++ toString index ++ ")"
  | badStepIndex slot index =>
    "invalid " ++ operandKey slot " step index (" ++ toString index ++ ")"
  | unavailableStep index available =>
    "reference to step " ++ toString index ++ " (available: " ++ toString available ++ ")"
  | unsupportedOperand => "unsupported operand " ++ Json.null.display

/-- The value that the fault is about. -/
def reference : Fault → Json
  | notAList got | notAnObject got | noBaseIndex got | unknownAction got | noRateKey _ got
  | unknownForm got | noStepIndex _ got | notANumber _ got | unknownOperandType got => got
  | tooManySlots slot | noAction slot => .string (actionKey slot)
  | noFirstOperation => .string (actionKey 1)
  | noOperandType slot => .string (operandKey slot "Type")
  | badBaseIndex index | badStepIndex _ index | unavailableStep index _ => .int index
  | tooManyOperations count => .int count
  | unsupportedOperand => .null

end Fault

/-- A fault of a sequence, at a step or of the sequence as a whole. -/
structure ConfigError where
  sequence : String
  step : Option Int
  fault : Fault

namespace ConfigError

/-- The message that names a place counts steps from one. -/
def message (e : ConfigError) : String :=
  match e.step with
  | some step => e.sequence ++ ": step " ++ toString (step + 1) ++ ": " ++ e.fault.text
  | none => e.sequence ++ ": " ++ e.fault.text

def reference (e : ConfigError) : Json := e.fault.reference

end ConfigError

end Markup
end TenderPricing
