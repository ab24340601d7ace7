import TenderPricing.Markup.RawStep
import TenderPricing.Markup.Rates
/-!
Evaluation of a markup sequence.

Steps run in order.  Each starts from the base value or an earlier result, applies its
operations from left to right and must end in a finite number; the last result is the priced
value.  The first step that fails ends the run.
-/
namespace TenderPricing
namespace Markup

variable {α : Type}

/-- Why an operation could not be applied. -/
inductive OperationFault where
  | unknownAction (got : Json)
  | divisionByZero

namespace OperationFault

def message : OperationFault → String
  | unknownAction got => got.display ++ " is not a valid MarkupAction"
  | divisionByZero => "float division by zero"

end OperationFault

namespace Action

/-- Applies an action to the running value and an operand. -/
def apply [Arithmetic α] (action : Action) (lhs rhs : α) : Except OperationFault α :=
  match action with
  | multiply => .ok (lhs * rhs)
  | divide => if rhs == 0.0 then .error .divisionByZero else .ok (lhs / rhs)
  | add => .ok (lhs + rhs)
  | subtract => .ok (lhs - rhs)
  | other word => .error (.unknownAction (.string word))

/-- Applies the action that an untyped value names. -/
def applyRaw [Arithmetic α] (action : Json) (lhs rhs : α) : Except OperationFault α :=
  match ofJson? action with
  | some known => known.apply lhs rhs
  | none => .error (.unknownAction action)

end Action

/-- Why a sequence has no value. -/
inductive EvaluationError where
  | config (error : ConfigError)
  /-- A percentage that is no number. -/
  | rate (fault : NumberFault)
  | unknownAction (got : Json)
  /-- A reference outside the steps seen so far, met where degrees are compared. -/
  | outOfRange
  | divisionByZero (sequence : String) (step : Int)
  | nonFinite (sequence : String) (step : Int)

namespace EvaluationError

def message : EvaluationError → String
  | config error => error.message
  | rate fault => fault.message
  | unknownAction got => (OperationFault.unknownAction got).message
  | outOfRange => "list index out of range"
  | divisionByZero sequence step =>
    "division by zero in step " ++ toString (step + 1) ++ " of sequence '" ++ sequence ++ "'"
  | nonFinite sequence step =>
    "non-finite result in step " ++ toString (step + 1) ++ " of sequence '" ++ sequence ++ "'"

end EvaluationError

/-- What a step did. -/
structure StepDetail (α : Type) where
  stepIndex : Nat
  stepName : Json
  parameterKeys : List String
  baseValue : α
  result : α

namespace StepDetail

/-- What the step added to the value it started from. -/
def markupAmount [Arithmetic α] (d : StepDetail α) : α := d.result - d.baseValue

end StepDetail

/-- A run of a sequence from a base value. -/
structure Evaluation (α : Type) where
  baseValue : α
  finalValue : α
  details : List (StepDetail α)

namespace Evaluation

def results (e : Evaluation α) : List α := e.details.map (·.result)

/-- The factor that the sequence applied; a base that is not positive has none and gives one. -/
def coefficient [Arithmetic α] (e : Evaluation α) : α :=
  if 0.0 < e.baseValue then e.finalValue / e.baseValue else 1.0

end Evaluation

/-- The base value or the result of a step, if it is there. -/
def reach? (base : α) (results : List α) (index : Int) : Option α :=
  if index = baseReference then some base
  else if 0 ≤ index then results[index.toNat]?
  else none

/-- `reach?` for the step at a position of a sequence. -/
def reach (base : α) (results : List α) (sequence : String) (position : Int) (index : Int) :
    Except EvaluationError α :=
  match reach? base results index with
  | some value => .ok value
  | none => .error (.config ⟨sequence, some position, .unavailableStep index results.length⟩)

namespace RateForm

/-- The factor that a percentage stands for. -/
def factor [Arithmetic α] (form : RateForm) (percent : α) : α :=
  match form with
  | addOne => 1.0 + percent / 100.0
  | direct => percent / 100.0

end RateForm

namespace Operand

/-- The number that an operand stands for. -/
def resolve [Arithmetic α] (base : α) (results : List α) (rates : Rates α) (sequence : String)
    (position : Int) : Operand α → Except EvaluationError α
  | rate key form => match rates key with
    | .ok percent => .ok (form.factor percent)
    | .error fault => .error (.rate fault)
  | step index => reach base results sequence position index
  | number value => .ok value
  | unsupported => .error (.config ⟨sequence, some position, .unsupportedOperand⟩)

end Operand

/-- Applies operations to a running value, from left to right. -/
def applyAll [Arithmetic α] (base : α) (results : List α) (rates : Rates α) (sequence : String)
    (position : Int) : α → List (Operation α) → Except EvaluationError α
  | value, [] => .ok value
  | value, op :: rest => do
    let rhs ← op.operand.resolve base results rates sequence position
    match op.action.apply value rhs with
    | .ok next => applyAll base results rates sequence position next rest
    | .error .divisionByZero => .error (.divisionByZero sequence position)
    | .error (.unknownAction got) => .error (.unknownAction got)

namespace Step

/-- Runs one step after the steps whose results are given. -/
def run [Arithmetic α] (base : α) (rates : Rates α) (sequence : String) (results : List α)
    (step : Step α) : Except EvaluationError (StepDetail α) := do
  let position := results.length
  let start ← reach base results sequence position step.baseIndex
  let value ← applyAll base results rates sequence position start step.operations
  if Arithmetic.isFinite value then
    return ⟨position, step.name, step.parameterKeys, start, value⟩
  else .error (.nonFinite sequence position)

end Step

/-- Runs the steps that follow the ones already done. -/
def runFrom [Arithmetic α] (base : α) (rates : Rates α) (sequence : String) :
    List (StepDetail α) → List (Step α) → Except EvaluationError (List (StepDetail α))
  | done, [] => .ok done
  | done, step :: rest => do
    let detail ← step.run base rates sequence (done.map (·.result))
    runFrom base rates sequence (done ++ [detail]) rest

/-- The value of the last step, or the base where there is none. -/
def finalValue (base : α) (details : List (StepDetail α)) : α :=
  match details.getLast? with
  | some detail => detail.result
  | none => base

/-- Evaluates a sequence for a base value. -/
def evaluate [Arithmetic α] (steps : List (Step α)) (base : α) (rates : Rates α)
    (sequence : String) : Except EvaluationError (Evaluation α) := do
  let details ← runFrom base rates sequence [] steps
  return ⟨base, finalValue base details, details⟩

/-- The markup of a commercial cost over its base, in percent; none over a base of zero. -/
def markupPercentage [Arithmetic α] (base commercial : α) : α :=
  if base == 0.0 then 0.0 else (commercial - base) / base * 100.0

end Markup
end TenderPricing
