import TenderPricing.Pricing.Cost
/-!
Agreement of coefficients with sequences.

The coefficient of a type times an item's amount should be what the sequence gives for that
amount; the items for which it is not are listed.
-/
namespace TenderPricing
namespace Pricing

open Markup

variable {α : Type}

structure Mismatch (α : Type) where
  itemId : String
  itemType : String
  baseAmount : α
  viaCoefficient : α
  viaSequence : α

namespace Mismatch

def difference [Arithmetic α] (m : Mismatch α) : α :=
  Arithmetic.abs (m.viaCoefficient - m.viaSequence)

end Mismatch

variable [Arithmetic α]

/-- The mismatch of one item, if there is one.  Items without a coefficient or without a positive
amount are not compared. -/
def mismatch? (tactic : Tactic α) (rates : Rates α) (coefficients : Keyed String α)
    (item : Item α) : Except EvaluationError (Option (Mismatch α)) :=
  let base := item.baseAmount
  match coefficients.lookup item.itemType with
  | none => .ok none
  | some coefficient =>
    if base ≤ 0.0 then .ok none
    else do
      let evaluation ← evaluate (tactic.sequenceFor item.itemType) base rates item.itemType
      let found : Mismatch α :=
        ⟨item.id, item.itemType, base, base * coefficient, evaluation.finalValue⟩
      return if tolerance < found.difference then some found else none

/-- The mismatches of all items, in order. -/
def mismatches (tactic : Tactic α) (rates : Rates α) (coefficients : Keyed String α) :
    List (Item α) → Except EvaluationError (List (Mismatch α))
  | [] => .ok []
  | item :: rest => do
    let first ← mismatch? tactic rates coefficients item
    let others ← mismatches tactic rates coefficients rest
    return first.toList ++ others

def checkConsistency (items : List (Item α)) (tactic : Tactic α) (rates : Rates α) :
    Logged α EvaluationError (List (Mismatch α)) := do
  let known ← coefficients rates tactic.sequences
  let found ← Logged.lift (mismatches tactic rates known items)
  Logged.tellIf (!found.isEmpty) (.disagreements found.length)
  return found

end Pricing
end TenderPricing
