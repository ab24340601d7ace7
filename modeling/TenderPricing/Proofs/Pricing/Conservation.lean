import Mathlib.Algebra.BigOperators.Group.List.Basic
import Mathlib.Algebra.Field.Rat
import Mathlib.Tactic.Ring
import TenderPricing.Pricing.Aggregation
import TenderPricing.Proofs.Outcome
/-!
Where the money of a tender goes.

A split moves money between the axes and loses none, whatever the distribution says.  So the cost
of an item is what its sequence makes of its amount, and the total of a tender is the sum of the
costs of its items.
-/
namespace TenderPricing
namespace Pricing

open Markup

/-! ## Splits -/

theorem Split.credit_sum (s : Split Rat) (axis : Axis) (amount : Rat) :
    (s.credit axis amount).material + (s.credit axis amount).work =
      s.material + s.work + amount := by
  cases axis with
  | material =>
    show s.material + amount + s.work = s.material + s.work + amount
    ring
  | work =>
    show s.material + (s.work + amount) = s.material + s.work + amount
    ring

theorem Split.wholly_sum (axis : Axis) (amount : Rat) :
    (Split.wholly axis amount).material + (Split.wholly axis amount).work = amount := by
  cases axis with
  | material =>
    show amount + 0.0 = amount
    rw [Arithmetic.exact_zero, add_zero]
  | work =>
    show 0.0 + amount = amount
    rw [Arithmetic.exact_zero, zero_add]

/-- Every setting of the two axes, and every way of having none, splits the cost without a rest. -/
theorem distribute_sum (base commercial : Rat) (label : String)
    (distribution : Option Distribution) :
    (distribute base commercial label distribution).material +
      (distribute base commercial label distribution).work = commercial := by
  unfold distribute
  cases distribution with
  | none => exact Split.wholly_sum _ commercial
  | some d =>
    cases ItemType.ofLabel? label with
    | none => exact Split.wholly_sum _ commercial
    | some type =>
      simp only
      cases d.effectiveAxes? type.category with
      | none => exact Split.wholly_sum _ commercial
      | some axes =>
        obtain ⟨baseAxis, markupAxis⟩ := axes
        have hbase := Split.credit_sum .zero baseAxis base
        have hzero : (Split.zero : Split Rat).material + (Split.zero : Split Rat).work = 0 := by
          show (0.0 : Rat) + 0.0 = 0
          rw [Arithmetic.exact_zero, add_zero]
        show ((Split.zero.credit baseAxis base).credit markupAxis (commercial - base)).material +
            ((Split.zero.credit baseAxis base).credit markupAxis (commercial - base)).work =
          commercial
        rw [Split.credit_sum, hbase, hzero]
        ring

/-! ## The cost of an item -/

section Cost

variable {α : Type} [Arithmetic α]

/-- The cost of an item by the three ways that it can be priced, with the journal left out. -/
theorem itemCost_result (item : Item α) (tactic : Tactic α) (rates : Rates α)
    (distribution : Option Distribution) (excluded : Bool) :
    (itemCost item tactic rates distribution excluded).result =
      if (tactic.sequenceFor item.itemType).isEmpty then .ok none
      else if item.baseAmount ≤ 0.0 then
        .ok (some (.ofSplit
          (distribute item.baseAmount item.baseAmount item.itemType distribution) 1.0))
      else do
        let e ← evaluate (pricingSteps tactic item.itemType excluded) item.baseAmount rates
          item.itemType
        return some (.ofSplit
          (distribute item.baseAmount e.finalValue item.itemType distribution) e.coefficient) := by
  have hsplit : ∀ commercial : α,
      (distributeLogged item.baseAmount commercial item.itemType distribution :
        Logged α EvaluationError (Split α)).result =
          .ok (distribute item.baseAmount commercial item.itemType distribution) := by
    intro commercial
    simp only [distributeLogged, Logged.result_bind, Logged.result_tellIf, Logged.result_pure,
      ok_bind]
  simp only [itemCost]
  by_cases hempty : (tactic.sequenceFor item.itemType).isEmpty = true
  · rw [if_pos hempty, if_pos hempty]
    rfl
  · rw [if_neg hempty, if_neg hempty]
    by_cases hbase : item.baseAmount ≤ 0.0
    · rw [if_pos hbase, if_pos hbase, Logged.result_bind, hsplit]
      rfl
    · rw [if_neg hbase, if_neg hbase, Logged.result_bind, Logged.result_lift]
      simp only [Logged.result_bind, hsplit, Logged.result_pure, ok_bind]
      rfl

/-- What an item is worth in a tender: the total of its cost, or its amount where it has none. -/
def itemPrice (tactic : Tactic α) (rates : Rates α) (distribution : Option Distribution)
    (exclusions : Exclusions) (item : Item α) : Except EvaluationError α := do
  let cost ← (itemCost item tactic rates distribution (exclusions.covers item)).result
  return match cost with
    | some cost => cost.total
    | none => item.baseAmount

end Cost

/-! ## Items with a positive amount -/

section Price

variable {tactic : Tactic Rat} {rates : Rates Rat} {distribution : Option Distribution}
variable {exclusions : Exclusions} {withDetails : Bool}

/-- A positive amount is priced by its sequence, and unpriced where there is none; how the cost is
split makes no difference. -/
theorem itemPrice_eq {item : Item Rat} (positive : 0 < item.baseAmount) :
    itemPrice tactic rates distribution exclusions item =
      if (tactic.sequenceFor item.itemType).isEmpty then .ok item.baseAmount
      else do
        let e ← evaluate (pricingSteps tactic item.itemType (exclusions.covers item))
          item.baseAmount rates item.itemType
        return e.finalValue := by
  have hpriced : ¬ item.baseAmount ≤ 0.0 := by
    rw [Arithmetic.exact_zero]
    exact Rat.not_le.mpr positive
  rw [itemPrice, itemCost_result]
  by_cases hempty : (tactic.sequenceFor item.itemType).isEmpty = true
  · rw [if_pos hempty, if_pos hempty]
    rfl
  · rw [if_neg hempty, if_neg hempty, if_neg hpriced]
    cases evaluate (pricingSteps tactic item.itemType (exclusions.covers item)) item.baseAmount
      rates item.itemType with
    | error failure => rfl
    | ok e => exact congrArg Except.ok (distribute_sum _ _ _ _)

/-- Adding an item adds its price; an amount that is not positive adds nothing. -/
theorem addItem_totalCommercial {a a' : Aggregation Rat} {item : Item Rat}
    (h : Aggregation.addItem tactic rates exclusions withDetails a item = .ok a')
    (distribution : Option Distribution) :
    if 0 < item.baseAmount then
      ∃ price, itemPrice tactic rates distribution exclusions item = .ok price ∧
        a'.totalCommercial = a.totalCommercial + price
    else a'.totalCommercial = a.totalCommercial := by
  simp only [Aggregation.addItem, Arithmetic.exact_zero] at h
  by_cases hbase : item.baseAmount ≤ 0
  · rw [if_pos hbase, Except.ok.injEq] at h
    rw [if_neg (Rat.not_lt.mpr hbase), h]
  · have positive := Rat.not_le.mp hbase
    rw [if_neg hbase] at h
    rw [if_pos positive, itemPrice_eq positive]
    by_cases hempty : (tactic.sequenceFor item.itemType).isEmpty = true
    · rw [if_pos hempty, Except.ok.injEq] at h
      rw [if_pos hempty, ← h]
      exact ⟨_, rfl, rfl⟩
    · rw [if_neg hempty, bind_eq_ok_iff] at h
      obtain ⟨e, he, h⟩ := h
      rw [pure_eq_ok_iff] at h
      rw [if_neg hempty, he, ← h]
      exact ⟨_, rfl, rfl⟩

theorem foldlM_addItem_totalCommercial (distribution : Option Distribution)
    {items : List (Item Rat)} :
    ∀ {a a' : Aggregation Rat},
      items.foldlM (Aggregation.addItem tactic rates exclusions withDetails) a = .ok a' →
        ∃ prices, (items.filter fun item => 0 < item.baseAmount).mapM
            (itemPrice tactic rates distribution exclusions) = .ok prices ∧
          a'.totalCommercial = a.totalCommercial + prices.sum := by
  induction items with
  | nil =>
    intro a a' h
    rw [List.foldlM_nil, pure_eq_ok_iff] at h
    subst h
    exact ⟨[], rfl, by rw [List.sum_nil, add_zero]⟩
  | cons item rest ih =>
    intro a a' h
    rw [List.foldlM_cons, bind_eq_ok_iff] at h
    obtain ⟨next, hnext, h⟩ := h
    obtain ⟨later, hlater, htotal⟩ := ih h
    have hitem := addItem_totalCommercial hnext distribution
    by_cases positive : 0 < item.baseAmount
    · rw [if_pos positive] at hitem
      obtain ⟨price, hprice, hnextTotal⟩ := hitem
      refine ⟨price :: later, ?_, ?_⟩
      · rw [List.filter_cons_of_pos (by simpa using positive), List.mapM_cons, hprice, ok_bind,
          hlater]
        rfl
      · rw [htotal, hnextTotal, List.sum_cons, add_assoc]
    · rw [if_neg positive] at hitem
      refine ⟨later, ?_, by rw [htotal, hitem]⟩
      rw [List.filter_cons_of_neg (by simpa using positive)]
      exact hlater

/-- The total of a tender is the sum of the prices of its items, whatever the distribution, for no
distribution loses or adds money. -/
theorem aggregate_totalCommercial {items : List (Item Rat)} {a : Aggregation Rat}
    (aggregated : aggregate items tactic rates exclusions withDetails = .ok a)
    (distribution : Option Distribution) :
    (∃ prices, (items.filter fun item => 0 < item.baseAmount).mapM
        (itemPrice tactic rates distribution exclusions) = .ok prices ∧
      a.totalCommercial = prices.sum) ∧
    ∀ (base commercial : Rat) (label : String),
      (distribute base commercial label distribution).material +
        (distribute base commercial label distribution).work = commercial := by
  refine ⟨?_, fun base commercial label => distribute_sum base commercial label distribution⟩
  obtain ⟨prices, hprices, htotal⟩ := foldlM_addItem_totalCommercial distribution aggregated
  have hzero : (Aggregation.zero : Aggregation Rat).totalCommercial = 0 := Arithmetic.exact_zero
  exact ⟨prices, hprices, by rw [htotal, hzero, zero_add]⟩

end Price

/-- Subcontracted material with its own growth; no other type has a sequence. -/
def subcontractTactic : Tactic Rat where
  sequences := [("суб-мат",
    [⟨-1, [⟨.multiply, .rate "subcontract_materials_cost_growth" .addOne⟩], .null⟩,
      ⟨0, [⟨.multiply, .rate "profit_subcontract" .addOne⟩], .null⟩])]

def subcontractRates : Rates Rat :=
  .ofList [("subcontract_materials_cost_growth", some 10), ("profit_subcontract", some 16)]

/-- One item whose growth is excluded, one whose growth is not, a refund and an item of a type that
nobody knows. -/
def mixedItems : List (Item Rat) :=
  [{ id := "1", itemType := "суб-мат", totalAmount := some 100, costCategory := some "roof" },
    { id := "2", itemType := "суб-мат", totalAmount := some 100 },
    { id := "3", itemType := "суб-мат", totalAmount := some (-5) },
    { id := "4", itemType := "прочее", totalAmount := some 30 }]

/-- The base of subcontracted material is shown as material and its markup as work. -/
def markupAsWork : Distribution where
  targets := fun
    | .subcontractBasicMaterial => ⟨some .material, some .work⟩
    | c => Targets.initial c

theorem aggregate_totalCommercial_mixedItems :
    ∃ a, aggregate mixedItems subcontractTactic subcontractRates { materials := ["roof"] } false =
        .ok a ∧
      (∃ prices, (mixedItems.filter fun item => 0 < item.baseAmount).mapM
          (itemPrice subcontractTactic subcontractRates (some markupAsWork)
            { materials := ["roof"] }) = .ok prices ∧
        a.totalCommercial = prices.sum) ∧
      ∀ (base commercial : Rat) (label : String),
        (distribute base commercial label (some markupAsWork)).material +
          (distribute base commercial label (some markupAsWork)).work = commercial := by
  have hvalue : (aggregate mixedItems subcontractTactic subcontractRates
      { materials := ["roof"] } false).toOption.isSome = true := by decide +kernel
  obtain ⟨a, ha⟩ := Option.isSome_iff_exists.mp hvalue
  have aggregated := eq_ok_of_toOption ha
  exact ⟨a, aggregated, aggregate_totalCommercial aggregated (some markupAsWork)⟩

end Pricing
end TenderPricing
