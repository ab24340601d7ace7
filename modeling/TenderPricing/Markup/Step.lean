import TenderPricing.Number.Arithmetic
import TenderPricing.Json.Value
/-!
The steps of a markup sequence.

A step starts from the base value or from the result of an earlier step and applies up to
three operations to it.  An operand is a markup rate known by its key, the result of an earlier
step, or a number.
-/
namespace TenderPricing
namespace Markup

inductive Action where
  | multiply
  | divide
  | add
  | subtract
  /-- A word that names no action. -/
  | other (word : String)
  deriving DecidableEq, Repr

namespace Action

def word : Action → String
  | multiply => "multiply"
  | divide => "divide"
  | add => "add"
  | subtract => "subtract"
  | other word => word

def ofWord : String → Action
  | "multiply" => multiply
  | "divide" => divide
  | "add" => add
  | "subtract" => subtract
  | word => other word

def isKnown : Action → Bool
  | other _ => false
  | _ => true

/-- The action that an untyped value names. -/
def ofJson? : Json → Option Action
  | .string word => if (ofWord word).isKnown then some (ofWord word) else none
  | _ => none

end Action

/-- How a percentage enters an operation. -/
inductive RateForm where
  /-- 10 % is 1.10 -/
  | addOne
  /-- 10 % is 0.10 -/
  | direct
  deriving DecidableEq, Repr

namespace RateForm

def word : RateForm → String
  | addOne => "addOne"
  | direct => "direct"

def ofWord? : String → Option RateForm
  | "addOne" => some addOne
  | "direct" => some direct
  | _ => none

end RateForm

/-- The index that stands for the base value in place of a step. -/
def baseReference : Int := -1

/-- The most operations that a step may have. -/
def maxOperations : Nat := 3

inductive Operand (α : Type) where
  | rate (key : String) (form : RateForm)
  | step (index : Int)
  | number (value : α)
  | unsupported
  deriving BEq, Repr

structure Operation (α : Type) where
  action : Action
  operand : Operand α
  deriving BEq, Repr

structure Step (α : Type) where
  baseIndex : Int
  operations : List (Operation α)
  /-- Null where the step has no name. -/
  name : Json := .null
  deriving BEq

namespace Operand

variable {α : Type}

/-- The key of a rate. -/
def key? : Operand α → Option String
  | rate key _ => some key
  | _ => none

end Operand

namespace Step

variable {α : Type}

/-- The rates that a step uses, one entry for each use. -/
def parameterKeys (step : Step α) : List String :=
  step.operations.filterMap (·.operand.key?)

end Step

end Markup
end TenderPricing
