import TenderPricing.Number.Arithmetic
/-!
Bill-of-quantities item types.

An item is priced as material or as work.  Types are known by their labels; a label that names no
type counts as work.
-/
namespace TenderPricing
namespace Pricing

/-- Where a cost is shown. -/
inductive Axis where
  | material
  | work
  deriving DecidableEq, Repr

namespace Axis

def word : Axis → String
  | material => "material"
  | work => "work"

def ofWord? : String → Option Axis
  | "material" => some material
  | "work" => some work
  | _ => none

end Axis

inductive ItemType where
  | material
  | subcontractMaterial
  | materialComponent
  | work
  | subcontractWork
  | workComponent
  deriving DecidableEq, Repr

namespace ItemType

def label : ItemType → String
  | material => "мат"
  | subcontractMaterial => "суб-мат"
  | materialComponent => "мат-комп."
  | work => "раб"
  | subcontractWork => "суб-раб"
  | workComponent => "раб-комп."

def ofLabel? : String → Option ItemType
  | "мат" => some material
  | "суб-мат" => some subcontractMaterial
  | "мат-комп." => some materialComponent
  | "раб" => some work
  | "суб-раб" => some subcontractWork
  | "раб-комп." => some workComponent
  | _ => none

theorem ofLabel?_label (t : ItemType) : ofLabel? t.label = some t := by
  cases t <;> rfl

def axis : ItemType → Axis
  | material | subcontractMaterial | materialComponent => .material
  | work | subcontractWork | workComponent => .work

end ItemType

/-- The axis that the items of a label belong to. -/
def ownAxis (label : String) : Axis :=
  match ItemType.ofLabel? label with
  | some type => type.axis
  | none => .work

/-- A cost split into material and work. -/
structure Split (α : Type) where
  material : α
  work : α
  deriving Repr

namespace Split

variable {α : Type} [Arithmetic α]

def zero : Split α := ⟨0.0, 0.0⟩

/-- Adds an amount on one axis. -/
def credit (axis : Axis) (amount : α) (s : Split α) : Split α :=
  match axis with
  | .material => { s with material := s.material + amount }
  | .work => { s with work := s.work + amount }

/-- An amount wholly on one axis. -/
def wholly (axis : Axis) (amount : α) : Split α :=
  match axis with
  | .material => ⟨amount, 0.0⟩
  | .work => ⟨0.0, amount⟩

end Split

/-- The commercial cost of an item and the coefficient that led to it. -/
structure ItemCost (α : Type) where
  material : α
  work : α
  coefficient : α
  deriving Repr

namespace ItemCost

variable {α : Type} [Arithmetic α]

def ofSplit (s : Split α) (coefficient : α) : ItemCost α := ⟨s.material, s.work, coefficient⟩

def total (c : ItemCost α) : α := c.material + c.work

end ItemCost

/-- Prices a base amount by a coefficient, wholly on the label's own axis. -/
def priceByCoefficient {α : Type} [Arithmetic α] (label : String) (base coefficient : α) :
    ItemCost α :=
  .ofSplit (.wholly (ownAxis label) (base * coefficient)) coefficient

end Pricing
end TenderPricing
