import TenderPricing.Pricing.Cost
/-!
Markup totals over a tender.

Every item with a positive amount adds to the totals; each step of its sequence is credited to the
parameters that it names.  Items of a type without a sequence count at their amount before markup.
-/
namespace TenderPricing
namespace Pricing

open Markup

variable {α : Type}

/-- Amounts before markup, by item type. -/
structure DirectCosts (α : Type) where
  subcontractWorks : α
  subcontractMaterials : α
  works : α
  materials : α
  workComponents : α
  materialComponents : α

namespace DirectCosts

variable [Arithmetic α]

def zero : DirectCosts α := ⟨0.0, 0.0, 0.0, 0.0, 0.0, 0.0⟩

def total (d : DirectCosts α) : α :=
  d.subcontractWorks + d.subcontractMaterials + d.works + d.materials + d.workComponents +
    d.materialComponents

/-- Adds an amount under its item type; a label that names no type adds nothing. -/
def credit (label : String) (amount : α) (d : DirectCosts α) : DirectCosts α :=
  match ItemType.ofLabel? label with
  | some .subcontractWork => { d with subcontractWorks := d.subcontractWorks + amount }
  | some .subcontractMaterial => { d with subcontractMaterials := d.subcontractMaterials + amount }
  | some .work => { d with works := d.works + amount }
  | some .material => { d with materials := d.materials + amount }
  | some .workComponent => { d with workComponents := d.workComponents + amount }
  | some .materialComponent => { d with materialComponents := d.materialComponents + amount }
  | none => d

end DirectCosts

/-- What one parameter was credited with. -/
structure ParameterTotal (α : Type) where
  markupAmount : α
  itemCount : Nat
  stepsCount : Nat
  byItemType : Keyed String α

namespace ParameterTotal

variable [Arithmetic α]

def zero : ParameterTotal α := ⟨0.0, 0, 0, []⟩

/-- Credits the amount of one step; `newItem` marks the first credit that an item gives. -/
def credit (itemType : String) (amount : α) (newItem : Bool) (p : ParameterTotal α) :
    ParameterTotal α :=
  { markupAmount := p.markupAmount + amount
    itemCount := if newItem then p.itemCount + 1 else p.itemCount
    stepsCount := p.stepsCount + 1
    byItemType := p.byItemType.update itemType 0.0 (· + amount) }

end ParameterTotal

/-- The pricing of one item, kept on request. -/
structure ItemDetail (α : Type) where
  itemId : String
  itemType : String
  baseAmount : α
  commercialCost : α
  steps : List (StepDetail α)

structure Aggregation (α : Type) where
  byParameter : Keyed String (ParameterTotal α)
  directCosts : DirectCosts α
  totalBase : α
  totalCommercial : α
  itemDetails : List (ItemDetail α)

namespace Aggregation

variable [Arithmetic α]

def zero : Aggregation α := ⟨[], .zero, 0.0, 0.0, []⟩

def totalMarkup (a : Aggregation α) : α := a.totalCommercial - a.totalBase

/-- The markup of several parameters together; parameters without credit add nothing. -/
def markupFor (a : Aggregation α) (keys : List String) : α :=
  keys.foldl (fun sum key => match a.byParameter.lookup key with
    | some p => sum + p.markupAmount
    | none => sum) 0.0

end Aggregation

variable [Arithmetic α]

/-- The credits that the steps of an item give, one for each rate that a step names. -/
def creditsOf (details : List (StepDetail α)) : List (String × α) :=
  details.flatMap fun d => d.parameterKeys.map fun key => (key, d.markupAmount)

/-- Books the credits of one item; `seen` holds the parameters that it has credited before. -/
def bookCredits (itemType : String) :
    List String → List (String × α) → Keyed String (ParameterTotal α) →
      Keyed String (ParameterTotal α)
  | _, [], table => table
  | seen, (key, amount) :: rest, table =>
    bookCredits itemType (key :: seen) rest
      (table.update key .zero (·.credit itemType amount (!seen.contains key)))

namespace Aggregation

/-- Adds one item. -/
def addItem (tactic : Tactic α) (rates : Rates α) (exclusions : Exclusions) (withDetails : Bool)
    (a : Aggregation α) (item : Item α) : Except EvaluationError (Aggregation α) :=
  let base := item.baseAmount
  if base ≤ 0.0 then .ok a
  else
    let direct := a.directCosts.credit item.itemType base
    let totalBase := a.totalBase + base
    if (tactic.sequenceFor item.itemType).isEmpty then
      .ok { a with
        directCosts := direct
        totalBase := totalBase
        totalCommercial := a.totalCommercial + base }
    else do
      let steps := pricingSteps tactic item.itemType (exclusions.covers item)
      let evaluation ← evaluate steps base rates item.itemType
      let detail : ItemDetail α :=
        ⟨item.id, item.itemType, base, evaluation.finalValue, evaluation.details⟩
      return {
        byParameter := bookCredits item.itemType [] (creditsOf evaluation.details) a.byParameter
        directCosts := direct
        totalBase := totalBase
        totalCommercial := a.totalCommercial + evaluation.finalValue
        itemDetails := if withDetails then a.itemDetails ++ [detail] else a.itemDetails }

end Aggregation

/-- Adds up all items of a tender. -/
def aggregate (items : List (Item α)) (tactic : Tactic α) (rates : Rates α)
    (exclusions : Exclusions) (withDetails : Bool) : Except EvaluationError (Aggregation α) :=
  items.foldlM (Aggregation.addItem tactic rates exclusions withDetails) .zero

/-- `aggregate`, with a notice of the totals. -/
def aggregateLogged (items : List (Item α)) (tactic : Tactic α) (rates : Rates α)
    (exclusions : Exclusions) (withDetails : Bool) :
    Logged α EvaluationError (Aggregation α) := do
  let a ← Logged.lift (aggregate items tactic rates exclusions withDetails)
  Logged.tell (.aggregated a.totalBase a.totalCommercial a.totalMarkup a.byParameter.length)
  return a

end Pricing
end TenderPricing
