import TenderPricing.Proofs.Number.Cents
import TenderPricing.Proofs.Pricing.Conservation
import TenderPricing.Proofs.Store.ItemRun
/-!
What the recalculation check finds after a recalculation.

A recalculation writes the cost of an item over two columns, as the distribution says, and beside
it a coefficient whose product with the amount is the whole cost.  The check compares that product
with the column of the item's own axis alone, and takes a zero for a cost that was never stored.
So a recalculation settles an item whose cost lies on its own axis and does not round to zero, and
leaves one due of whose cost more than a rounding lies on the other axis.
-/
namespace TenderPricing

/-! ## The coefficient of a cost -/

namespace Pricing

open Markup

theorem Item.baseAmount_eq (item : Item Rat) : item.baseAmount = item.totalAmount.getD 0 := by
  unfold Item.baseAmount Rates.orZero
  cases item.totalAmount with
  | none => exact Arithmetic.exact_zero
  | some amount =>
    rw [Arithmetic.exact_zero]
    by_cases hzero : amount = 0
    · simp [hzero]
    · simp [hzero]

theorem mul_coefficient {steps : List (Step Rat)} {base : Rat} {rates : Rates Rat}
    {sequence : String} {e : Evaluation Rat} (h : evaluate steps base rates sequence = .ok e)
    (positive : 0 < base) : base * e.coefficient = e.finalValue := by
  rw [evaluate, bind_eq_ok_iff] at h
  obtain ⟨details, -, h⟩ := h
  rw [pure_eq_ok_iff] at h
  have hbase : e.baseValue = base := by rw [← h]
  have hpriced : (0.0 : Rat) < e.baseValue := by rwa [hbase, Arithmetic.exact_zero]
  rw [Evaluation.coefficient, if_pos hpriced, hbase, mul_div_cancel₀ _ positive.ne']

/-- A cost is its coefficient times the amount, split as the distribution says. -/
theorem itemCost_split {item : Item Rat} {tactic : Tactic Rat} {rates : Rates Rat}
    {distribution : Option Distribution} {excluded : Bool} {cost : ItemCost Rat}
    (h : (itemCost item tactic rates distribution excluded).result = .ok (some cost)) :
    cost = .ofSplit (distribute item.baseAmount (item.baseAmount * cost.coefficient) item.itemType
      distribution) cost.coefficient := by
  rw [itemCost_result] at h
  by_cases hempty : (tactic.sequenceFor item.itemType).isEmpty = true
  · rw [if_pos hempty] at h
    cases h
  · rw [if_neg hempty] at h
    by_cases hbase : item.baseAmount ≤ 0.0
    · rw [if_pos hbase, Except.ok.injEq, Option.some.injEq] at h
      subst h
      have hone : item.baseAmount * (1.0 : Rat) = item.baseAmount := by norm_num
      show _ = ItemCost.ofSplit (distribute _ (item.baseAmount * 1.0) _ _) 1.0
      rw [hone]
    · rw [if_neg hbase, bind_eq_ok_iff] at h
      obtain ⟨e, he, h⟩ := h
      rw [pure_eq_ok_iff, Option.some.injEq] at h
      subst h
      rw [Arithmetic.exact_zero] at hbase
      show _ = ItemCost.ofSplit (distribute _ (item.baseAmount * e.coefficient) _ _) e.coefficient
      rw [mul_coefficient he (Rat.not_le.mp hbase)]

/-- The other axis. -/
def Axis.other : Axis → Axis
  | material => work
  | work => material

/-- The part of a cost that lies on an axis. -/
def ItemCost.onAxis {α : Type} (cost : ItemCost α) : Axis → α
  | .material => cost.material
  | .work => cost.work

theorem ItemCost.onAxis_add_other (cost : ItemCost Rat) (axis : Axis) :
    cost.onAxis axis + cost.onAxis axis.other = cost.total := by
  cases axis with
  | material => rfl
  | work => exact add_comm cost.work cost.material

end Pricing

namespace Store

open Markup Pricing

/-! ## The check on a row that was just written -/

theorem given?_eq (value : Option Rat) :
    Item.given? value = if value.getD 0 = 0 then none else some (value.getD 0) := by
  cases value with
  | none => rfl
  | some x =>
    unfold Item.given?
    rw [Arithmetic.exact_zero]
    by_cases hzero : x = 0
    · simp [hzero]
    · simp [hzero]

theorem storedCost_withCost (row : ItemRow Rat) (cost : ItemCost Rat) :
    (row.withCost cost).toItem.storedCost =
      some (Arithmetic.roundToCents (cost.onAxis (ownAxis row.itemType))) := by
  show (match ownAxis row.itemType with
    | .material => some (Arithmetic.roundToCents cost.material)
    | .work => some (Arithmetic.roundToCents cost.work)) = _
  cases ownAxis row.itemType <;> rfl

/-- When the check asks for the row again, although its cost was just written: the amount is not
zero, and the cost is zero, rounds to zero on the own axis, or lies elsewhere. -/
def Due (row : ItemRow Rat) (cost : ItemCost Rat) : Prop :=
  row.baseAmount ≠ 0 ∧
    (cost.total = 0 ∨ |cost.onAxis (ownAxis row.itemType)| ≤ 1 / 200 ∨
      1 / 100 < |cost.total - Arithmetic.roundToCents (cost.onAxis (ownAxis row.itemType))|)

theorem needsRecalculation_withCost {row : ItemRow Rat} {cost : ItemCost Rat}
    (htotal : cost.total = row.baseAmount * cost.coefficient) :
    (row.withCost cost).toItem.needsRecalculation = true ↔ Due row cost := by
  have hamount : (row.withCost cost).toItem.totalAmount = row.totalAmount := rfl
  have hcoefficient : (row.withCost cost).toItem.coefficient = some cost.coefficient := rfl
  have hbase := Item.baseAmount_eq row.toItem
  rw [Item.needsRecalculation, Due, ← Arithmetic.roundToCents_eq_zero_iff, htotal, hamount,
    storedCost_withCost, hcoefficient, given?_eq, given?_eq, given?_eq, ← hbase,
    Option.getD_some, Option.getD_some]
  by_cases hzero : row.baseAmount = 0
  · simp [hzero]
  · rw [if_neg hzero, and_iff_right hzero, mul_eq_zero, or_iff_right hzero]
    by_cases hown : Arithmetic.roundToCents (cost.onAxis (ownAxis row.itemType)) = 0
    · simp [hown]
    · by_cases hnone : cost.coefficient = 0
      · simp [hown, hnone]
      · have htolerance : (tolerance : Rat) = 1 / 100 := by decide +kernel
        simp only [hown, hnone, if_false, false_or, decide_eq_true_eq, Arithmetic.abs_eq,
          htolerance]

/-- Where the cost lies wholly on the own axis, only a cost that rounds to zero is due. -/
theorem due_iff_of_onOwnAxis {row : ItemRow Rat} {cost : ItemCost Rat}
    (h : cost.onAxis (ownAxis row.itemType).other = 0) :
    Due row cost ↔ row.baseAmount ≠ 0 ∧ |cost.total| ≤ 1 / 200 := by
  have hown : cost.onAxis (ownAxis row.itemType) = cost.total := by
    rw [← cost.onAxis_add_other (ownAxis row.itemType), h, add_zero]
  rw [Due, hown]
  refine and_congr_right fun _ => ⟨?_, fun hsmall => .inr (.inl hsmall)⟩
  rintro (hzero | hsmall | hfar)
  · rw [hzero, abs_zero]
    norm_num
  · exact hsmall
  · have near := Arithmetic.abs_sub_roundToCents_le cost.total
    linarith

/-- A cost of which more than a cent and a half lies on the other axis is due. -/
theorem due_of_onOtherAxis {row : ItemRow Rat} {cost : ItemCost Rat} (hbase : row.baseAmount ≠ 0)
    (h : 3 / 200 < |cost.onAxis (ownAxis row.itemType).other|) : Due row cost := by
  have hsum := cost.onAxis_add_other (ownAxis row.itemType)
  obtain ⟨above, below⟩ := abs_le.mp
    (Arithmetic.abs_sub_roundToCents_le (cost.onAxis (ownAxis row.itemType)))
  refine ⟨hbase, .inr (.inr ?_)⟩
  rcases lt_abs.mp h with hpositive | hnegative
  · exact lt_abs.mpr (.inl (by linarith))
  · exact lt_abs.mpr (.inr (by linarith))

/-! ## The rows of a recalculation -/

section Rows

variable {α : Type} [Arithmetic α]

/-- The row is one of the tender's and its item has the cost. -/
def Prices (ctx : Context α) (row : ItemRow α) (cost : ItemCost α) : Prop :=
  row.isOf ctx.tender = true ∧ (rowCost ctx row).result = .ok (some cost)

/-- What a recalculation makes of a row. -/
inductive Repriced (ctx : Context α) : ItemRow α → ItemRow α → Prop where
  | updated {row : ItemRow α} {cost : ItemCost α} (priced : Prices ctx row cost) :
      Repriced ctx row (row.withCost cost)
  | kept {row : ItemRow α} (unpriced : ∀ cost, ¬Prices ctx row cost) : Repriced ctx row row

theorem Repriced.eq_withCost {ctx : Context α} {before after : ItemRow α}
    (h : Repriced ctx before after) {cost : ItemCost α} (priced : Prices ctx before cost) :
    after = before.withCost cost := by
  cases h with
  | updated found =>
    have hcost := found.2.symm.trans priced.2
    rw [Except.ok.injEq, Option.some.injEq] at hcost
    rw [hcost]
  | kept unpriced => exact (unpriced cost priced).elim

theorem prices_iff {ctx : Context α} {row : ItemRow α} {cost : ItemCost α} :
    Prices ctx row cost ↔ costOf? ctx row = some cost :=
  costOf?_eq_some_iff.symm

theorem repriced_of_costOf? (ctx : Context α) (row : ItemRow α) :
    Repriced ctx row (repriced row (costOf? ctx row)) := by
  cases hcost : costOf? ctx row with
  | some cost => exact .updated (prices_iff.mpr hcost)
  | none =>
    refine .kept fun cost priced => ?_
    rw [prices_iff, hcost] at priced
    cases priced

/-- A recalculation that reaches its end has dealt with every row. -/
theorem recalculate_repriced {t : Tables α} {id : String} {summary : Summary}
    (returned : (recalculate t id).outcome.result = .ok summary) :
    ∃ ctx, (loadContext t id false).result = .ok ctx ∧
      List.Forall₂ (Repriced ctx) t.items (recalculate t id).tables.items := by
  obtain ⟨ctx, hloaded, priceable, -⟩ := recalculate_eq_ok_iff.mp returned
  refine ⟨ctx, hloaded, ?_⟩
  rw [recalculate_tables hloaded priceable, List.forall₂_map_right_iff, List.forall₂_same]
  exact fun row _ => repriced_of_costOf? ctx row

end Rows

theorem Prices.total {ctx : Context Rat} {row : ItemRow Rat} {cost : ItemCost Rat}
    (priced : Prices ctx row cost) : cost.total = row.baseAmount * cost.coefficient := by
  rw [itemCost_split priced.2]
  exact distribute_sum _ _ _ _

/-- Without a distribution the cost of an item lies wholly on its own axis. -/
theorem Prices.onOtherAxis {ctx : Context Rat} {row : ItemRow Rat} {cost : ItemCost Rat}
    (priced : Prices ctx row cost) (undistributed : ctx.distribution = none) :
    cost.onAxis (ownAxis row.itemType).other = 0 := by
  rw [itemCost_split priced.2, undistributed]
  show ItemCost.onAxis (.ofSplit (.wholly (ownAxis row.itemType) _) _) _ = 0
  cases ownAxis row.itemType with
  | material => exact Arithmetic.exact_zero
  | work => exact Arithmetic.exact_zero

/-- What the check finds in each row that a recalculation has updated.  Without a distribution a
row is settled unless its cost rounds to zero; with one that puts more than a cent and a half on
the other axis it is not. -/
theorem recalculate_due_iff {t : Tables Rat} {id : String} {summary : Summary}
    (returned : (recalculate t id).outcome.result = .ok summary) :
    ∃ ctx, (loadContext t id false).result = .ok ctx ∧ ctx.tender = id ∧
      List.Forall₂ (fun before after => Repriced ctx before after ∧
          ∀ cost, Prices ctx before cost →
            (after.toItem.needsRecalculation = true ↔ Due before cost) ∧
            (ctx.distribution = none →
              (Due before cost ↔ before.baseAmount ≠ 0 ∧ |cost.total| ≤ 1 / 200)) ∧
            (before.baseAmount ≠ 0 → 3 / 200 < |cost.onAxis (ownAxis before.itemType).other| →
              Due before cost))
        t.items (recalculate t id).tables.items := by
  obtain ⟨ctx, hloaded, hrows⟩ := recalculate_repriced returned
  refine ⟨ctx, hloaded, loadContext_tender hloaded, hrows.imp fun before after hrow => ⟨hrow, ?_⟩⟩
  intro cost priced
  refine ⟨?_, ?_, due_of_onOtherAxis⟩
  · rw [hrow.eq_withCost priced]
    exact needsRecalculation_withCost priced.total
  · intro undistributed
    exact due_iff_of_onOwnAxis (priced.onOtherAxis undistributed)

/-- One item of material in a tender that shows the markup of material as work. -/
def markupAsWorkTables : Tables Rat where
  tenders := [⟨"t-1", some "m-1"⟩]
  tactics := [⟨"m-1", some "T", .object [("мат", .array [.object [
      ("baseIndex", .int (-1)), ("action1", .string "multiply"),
      ("operand1Type", .string "markup"), ("operand1Key", .string "profit_own_forces"),
      ("operand1MultiplyFormat", .string "addOne")]])], .null⟩]
  parameters := [⟨"p-1", "profit_own_forces"⟩]
  percentages := [⟨some "t-1", some "p-1", some 50⟩]
  distributions := [⟨some "t-1", [("basic_material_base_target", .string "material"),
    ("basic_material_markup_target", .string "work")]⟩]
  items :=
    [{ id := "i-1", itemType := "мат", totalAmount := some 100, tender := some "t-1"
       position := some "P1" }]
  positions := [{ id := "P1", tender := some "t-1" }]

theorem recalculate_due_iff_markupAsWork :
    ∃ summary, (recalculate markupAsWorkTables "t-1").outcome.result = .ok summary ∧
      ∃ ctx, (loadContext markupAsWorkTables "t-1" false).result = .ok ctx ∧ ctx.tender = "t-1" ∧
        List.Forall₂ (fun before after => Repriced ctx before after ∧
            ∀ cost, Prices ctx before cost →
              (after.toItem.needsRecalculation = true ↔ Due before cost) ∧
              (ctx.distribution = none →
                (Due before cost ↔ before.baseAmount ≠ 0 ∧ |cost.total| ≤ 1 / 200)) ∧
              (before.baseAmount ≠ 0 → 3 / 200 < |cost.onAxis (ownAxis before.itemType).other| →
                Due before cost))
          markupAsWorkTables.items (recalculate markupAsWorkTables "t-1").tables.items := by
  have hvalue : (recalculate markupAsWorkTables "t-1").outcome.result.toOption =
      some ⟨"t-1", 1, 0, 1⟩ := by decide +kernel
  have returned := eq_ok_of_toOption hvalue
  exact ⟨_, returned, recalculate_due_iff returned⟩

/-- The whole cost of 150 is stored, 100 of it as material, and the item is due again. -/
theorem markupAsWork_due :
    (recalculate markupAsWorkTables "t-1").outcome.result.toOption = some ⟨"t-1", 1, 0, 1⟩ ∧
      (recalculate markupAsWorkTables "t-1").tables.items.map
          (fun row => (row.materialCost, row.workCost, row.coefficient)) =
        [(some 100, some 50, some (3 / 2))] ∧
      (recalculate markupAsWorkTables "t-1").tables.items.map (·.toItem.needsRecalculation) =
        [true] := by
  decide +kernel

end Store

end TenderPricing
