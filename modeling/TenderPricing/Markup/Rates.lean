import TenderPricing.Journal.Logged
import TenderPricing.Json.Numeric
import TenderPricing.Keyed
import TenderPricing.Number.Arithmetic
/-!
Markup percentages by parameter key.

Sequences ask for percentages one key at a time.  A key that is missing, null or zero means no
markup; an untyped value is converted only when its key is asked for, so a value that is no
number does no harm where no step names it.
-/
namespace TenderPricing
namespace Markup

variable {α : Type}

/-- The percentage of a key, or why it has none. -/
abbrev Rates (α : Type) := String → Except NumberFault α

namespace Rates

/-- A stored percentage, with every form of nothing as a plain zero. -/
def orZero [Arithmetic α] (value : α) : α := if value == 0.0 then 0.0 else value

/-- Percentages of the kind that is stored: numbers, or nothing. -/
def ofList [Arithmetic α] (values : List (String × Option α)) : Rates α := fun key =>
  match values.lookup key with
  | some (some value) => .ok (orZero value)
  | _ => .ok 0.0

/-- Percentages as a caller may give them. -/
def ofMembers [Arithmetic α] (members : List (String × Json)) : Rates α := fun key =>
  match members.lookup key with
  | none => .ok 0.0
  | some value =>
    if value.isSet then value.toFloat.map Arithmetic.ofFloat else .ok 0.0

/-- The percentages that apply where a tender has none stored. -/
def fallback [Arithmetic α] : Keyed String α :=
  [("mechanization_service", 5.0),
   ("mbp_gsm", 5.0),
   ("warranty_period", 5.0),
   ("works_16_markup", 60.0),
   ("works_cost_growth", 10.0),
   ("material_cost_growth", 10.0),
   ("subcontract_works_cost_growth", 10.0),
   ("subcontract_materials_cost_growth", 10.0),
   ("contingency_costs", 3.0),
   ("overhead_own_forces", 10.0),
   ("overhead_subcontract", 10.0),
   ("general_costs_without_subcontract", 20.0),
   ("profit_own_forces", 10.0),
   ("profit_subcontract", 16.0)]

/-- Every value as a number, nulls as nothing; the first value that is no number decides. -/
def numbersOf [Arithmetic α] :
    List (String × Json) → Except NumberFault (List (String × Option α))
  | [] => .ok []
  | (key, .null) :: rest => do
    let others ← numbersOf rest
    return (key, none) :: others
  | (key, value) :: rest => do
    let number ← value.toFloat
    let others ← numbersOf rest
    return (key, some (Arithmetic.ofFloat number)) :: others

/-- The percentages that are in force: the last stored one of each key unless that is null, or the
fallback set, with a notice, where none are stored. -/
def inForce [Arithmetic α] {ε : Type} (stored : Option (List (String × Option α))) :
    Logged α ε (Keyed String α) :=
  match stored with
  | none => do
    Logged.tell .fallbackRates
    return fallback
  | some values =>
    return (Keyed.ofList values).filterMap fun (key, value) => value.map (key, ·)

/-- Look-up in percentages that are in force. -/
def ofTable [Arithmetic α] (table : Keyed String α) : Rates α :=
  ofList (table.map fun (key, value) => (key, some value))

end Rates

end Markup
end TenderPricing
