import TenderPricing.Journal.Logged
import TenderPricing.Json.Value
import TenderPricing.Pricing.ItemType
/-!
The pricing distribution of a tender.

For each category of items a tender may say on which axis the base part of a cost is shown and on
which the markup part.  Where it says nothing for a category, another category may stand in;
subcontracted material without a setting is shown as work.
-/
namespace TenderPricing
namespace Pricing

inductive Category where
  | basicMaterial
  | auxiliaryMaterial
  | componentMaterial
  | subcontractBasicMaterial
  | subcontractAuxiliaryMaterial
  | work
  | componentWork
  deriving DecidableEq, Repr

namespace Category

/-- Every category, in the order in which settings are read and shown. -/
def all : List Category :=
  [basicMaterial, auxiliaryMaterial, componentMaterial, subcontractBasicMaterial,
    subcontractAuxiliaryMaterial, work, componentWork]

def word : Category → String
  | basicMaterial => "basic_material"
  | auxiliaryMaterial => "auxiliary_material"
  | componentMaterial => "component_material"
  | subcontractBasicMaterial => "subcontract_basic_material"
  | subcontractAuxiliaryMaterial => "subcontract_auxiliary_material"
  | work => "work"
  | componentWork => "component_work"

def ofWord? (word : String) : Option Category := all.find? (·.word = word)

/-- The setting that holds the axis of the base part. -/
def baseKey (c : Category) : String := c.word ++ "_base_target"

/-- The setting that holds the axis of the markup part. -/
def markupKey (c : Category) : String := c.word ++ "_markup_target"

/-- The category that stands in for one without settings. -/
def fallback? : Category → Option Category
  | componentMaterial => some auxiliaryMaterial
  | componentWork => some work
  | _ => none

end Category

/-- The category of an item type.  Subcontracted work is priced as work. -/
def ItemType.category : ItemType → Category
  | .material => .basicMaterial
  | .materialComponent => .componentMaterial
  | .subcontractMaterial => .subcontractBasicMaterial
  | .work | .subcontractWork => .work
  | .workComponent => .componentWork

/-- The axes of the base part and of the markup part, each if it is set. -/
structure Targets where
  base : Option Axis
  markup : Option Axis
  deriving DecidableEq, Repr

namespace Targets

/-- The axes, if both are set. -/
def both? : Targets → Option (Axis × Axis)
  | ⟨some base, some markup⟩ => some (base, markup)
  | _ => none

/-- What a category starts with: three categories have settings of their own. -/
def initial : Category → Targets
  | .basicMaterial | .auxiliaryMaterial => ⟨some .material, some .material⟩
  | .work => ⟨some .work, some .work⟩
  | _ => ⟨none, none⟩

end Targets

/-- The settings of a tender, category by category. -/
structure Distribution where
  targets : Category → Targets := Targets.initial

/-- A setting that names no axis. -/
inductive TargetFault where
  | unknownAxis (got : Json)

namespace TargetFault

def message : TargetFault → String
  | unknownAxis got => got.display ++ " is not a valid CostAxis"

end TargetFault

namespace Distribution

/-- Reads one setting; what counts as empty leaves the initial one. -/
def readTarget (initial : Option Axis) (raw : Json) : Except TargetFault (Option Axis) :=
  if raw.isSet then
    match raw with
    | .string word => match Axis.ofWord? word with
      | some axis => .ok (some axis)
      | none => .error (.unknownAxis raw)
    | other => .error (.unknownAxis other)
  else .ok initial

/-- Reads the settings of one category. -/
def readCategory (members : List (String × Json)) (c : Category) :
    Except TargetFault (Category × Targets) := do
  let initial := Targets.initial c
  let base ← readTarget initial.base (Json.member members c.baseKey)
  let markup ← readTarget initial.markup (Json.member members c.markupKey)
  return (c, ⟨base, markup⟩)

/-- Reads all settings, in order. -/
def ofMembers (members : List (String × Json)) : Except TargetFault Distribution := do
  let read ← Category.all.mapM (readCategory members)
  return ⟨fun c => (read.lookup c).getD (Targets.initial c)⟩

/-- The axes of a category by its own settings. -/
def axes? (d : Distribution) (c : Category) : Option (Axis × Axis) := (d.targets c).both?

/-- The axes of a category by its own settings or by those of its stand-in. -/
def effectiveAxes? (d : Distribution) (c : Category) : Option (Axis × Axis) :=
  match d.axes? c with
  | some axes => some axes
  | none => c.fallback?.bind d.axes?

/-- The axes by the word of a category; words that name no category have none. -/
def axesOfWord? (d : Distribution) (word : String) : Option (Axis × Axis) :=
  (Category.ofWord? word).bind d.axes?

end Distribution

variable {α : Type} [Arithmetic α]

/-- Splits a commercial cost into material and work.  Without a distribution it lies wholly on
the label's own axis; otherwise the base part and the rest go where the distribution says. -/
def distribute (base commercial : α) (label : String) (distribution : Option Distribution) :
    Split α :=
  match distribution with
  | none => .wholly (ownAxis label) commercial
  | some d => match ItemType.ofLabel? label with
    | none => .wholly .work commercial
    | some type => match d.effectiveAxes? type.category with
      | none => .wholly .work commercial
      | some (baseAxis, markupAxis) =>
        (Split.zero.credit baseAxis base).credit markupAxis (commercial - base)

/-- `distribute`, with a notice where a distribution meets a label that names no type. -/
def distributeLogged {ε : Type} (base commercial : α) (label : String)
    (distribution : Option Distribution) : Logged α ε (Split α) := do
  Logged.tellIf (distribution.isSome && (ItemType.ofLabel? label).isNone) (.unknownItemType label)
  return distribute base commercial label distribution

end Pricing
end TenderPricing
