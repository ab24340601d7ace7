import TenderPricing.Proofs.Store.ItemRun
/-!
Recalculating a tender again.

The rows that a recalculation reads hold the very columns that it writes: the costs and the
coefficient of an item, the totals of a position.  None of these has a part in a price.  So
tables that differ only there lead to the same recalculation, and a recalculation of tables that it
has just left changes nothing.  The arithmetic makes no difference: the statements hold over
doubles as over exact numbers.
-/
namespace TenderPricing
namespace Store

open Markup Pricing

variable {α : Type}

/-- A row without the columns that a recalculation writes. -/
def ItemRow.inputs (row : ItemRow α) : ItemRow α :=
  { row with materialCost := none, workCost := none, coefficient := none }

def PositionRow.inputs (p : PositionRow α) : PositionRow α :=
  { p with materialTotal := none, workTotal := none }

theorem countP_inputs {positions positions' : List (PositionRow α)} (f : PositionRow α → Bool)
    (hf : ∀ p, f p.inputs = f p)
    (same : positions'.map PositionRow.inputs = positions.map PositionRow.inputs) :
    positions'.countP f = positions.countP f := by
  have hfold : ∀ rows : List (PositionRow α),
      (rows.map PositionRow.inputs).countP f = rows.countP f := by
    intro rows
    rw [List.countP_map]
    exact congrArg (fun g => rows.countP g) (funext hf)
  rw [← hfold, same, hfold]

variable [Arithmetic α]

/-- The tables differ at most in what a run writes: in costs and coefficients of the rows that it
prices, and in totals of the positions of these rows. -/
structure DifferInOutputs (ctx : Context α) (t t' : Tables α) : Prop where
  items : List.Forall₂ (fun row row' => row'.inputs = row.inputs ∧
    (costOf? ctx row = none → row' = row)) t.items t'.items
  positions : List.Forall₂ (fun p p' => p'.inputs = p.inputs ∧
    (costsAt ctx t.items p.id = [] → p' = p)) t.positions t'.positions
  others : t' = { t with items := t'.items, positions := t'.positions }

/-! ## What a price depends on -/

section Inputs

variable {ctx : Context α}

theorem rowCost_inputs (row : ItemRow α) : rowCost ctx row.inputs = rowCost ctx row := rfl

theorem costOf?_inputs (row : ItemRow α) : costOf? ctx row.inputs = costOf? ctx row := rfl

theorem costOf?_congr {row row' : ItemRow α} (same : row'.inputs = row.inputs) :
    costOf? ctx row' = costOf? ctx row := by
  rw [← costOf?_inputs, same, costOf?_inputs]

theorem priceItems_outcome_inputs {rows : List (ItemRow α)} :
    ∀ tally : Tally α, (priceItems ctx tally (rows.map ItemRow.inputs)).outcome =
      (priceItems ctx tally rows).outcome := by
  induction rows with
  | nil => exact fun _ => rfl
  | cons row rest ih =>
    intro tally
    have hown : row.inputs.isOf ctx.tender = row.isOf ctx.tender := rfl
    have hposition : row.inputs.position = row.position := rfl
    simp only [List.map_cons, priceItems, hown, hposition, rowCost_inputs]
    by_cases own : row.isOf ctx.tender = true
    · simp only [if_pos own]
      cases (rowCost ctx row).result with
      | error e => rfl
      | ok cost => simp only [ih]
    · simp only [if_neg own, ih]

theorem repriced_congr {row row' : ItemRow α} (same : row'.inputs = row.inputs)
    (kept : costOf? ctx row = none → row' = row) :
    repriced row' (costOf? ctx row') = repriced row (costOf? ctx row) := by
  rw [costOf?_congr same]
  cases hcost : costOf? ctx row with
  | none => exact kept hcost
  | some cost =>
    -- the cost overwrites whatever is no input
    show row'.inputs.withCost cost = row.inputs.withCost cost
    rw [same]

end Inputs

namespace DifferInOutputs

variable {ctx : Context α} {t t' : Tables α}

theorem inputs_items (h : DifferInOutputs ctx t t') :
    t'.items.map ItemRow.inputs = t.items.map ItemRow.inputs := by
  rw [← List.forall₂_eq_eq_eq, List.forall₂_map_left_iff, List.forall₂_map_right_iff]
  exact h.items.flip.imp fun _ _ hrow => hrow.1

theorem inputs_positions (h : DifferInOutputs ctx t t') :
    t'.positions.map PositionRow.inputs = t.positions.map PositionRow.inputs := by
  rw [← List.forall₂_eq_eq_eq, List.forall₂_map_left_iff, List.forall₂_map_right_iff]
  exact h.positions.flip.imp fun _ _ hrow => hrow.1

theorem repriced_items (h : DifferInOutputs ctx t t') :
    (t'.items.map fun row => repriced row (costOf? ctx row)) =
      t.items.map fun row => repriced row (costOf? ctx row) := by
  rw [← List.forall₂_eq_eq_eq, List.forall₂_map_left_iff, List.forall₂_map_right_iff]
  exact h.items.flip.imp fun _ _ hrow => repriced_congr hrow.1 hrow.2

theorem rollUp_positions (h : DifferInOutputs ctx t t') :
    rollUp (tallyOf ctx t.items).totals t'.positions =
      rollUp (tallyOf ctx t.items).totals t.positions := by
  unfold rollUp
  rw [← List.forall₂_eq_eq_eq, List.forall₂_map_left_iff, List.forall₂_map_right_iff]
  refine h.positions.flip.imp fun p' p hrow => ?_
  obtain ⟨same, kept⟩ := hrow
  have hid : p'.inputs.id = p.inputs.id := by rw [same]
  change p'.id = p.id at hid
  simp only [totalOf?_eq, hid]
  by_cases hnone : costsAt ctx t.items p.id = []
  · simp only [if_pos hnone, kept hnone]
  · simp only [if_neg hnone]
    show p'.inputs.withTotals _ = p.inputs.withTotals _
    rw [same]

end DifferInOutputs

/-! ## Two recalculations -/

section Run

variable {ctx : Context α} {t t' : Tables α} {id : String}

theorem loadContext_congr {items : List (ItemRow α)} {positions : List (PositionRow α)}
    (same : t' = { t with items := items, positions := positions }) :
    loadContext t' id false = loadContext t id false := by
  rw [same]
  rfl

theorem recalculate_congr (loaded : (loadContext t id false).result = .ok ctx)
    (priceable : Priceable ctx t.items) (h : DifferInOutputs ctx t t') :
    recalculate t' id = recalculate t id := by
  have hcontext : loadContext t' id false = loadContext t id false := loadContext_congr h.others
  have houtcome : (priceItems ctx {} t'.items).outcome = (priceItems ctx {} t.items).outcome := by
    rw [← priceItems_outcome_inputs, h.inputs_items, priceItems_outcome_inputs]
  have hrun : (priceItems ctx {} t'.items).outcome.result = .ok (tallyOf ctx t.items) := by
    rw [houtcome]
    exact priceItems_eq_ok_iff.mpr ⟨priceable, rfl⟩
  obtain ⟨priceable', htally⟩ := priceItems_eq_ok_iff.mp hrun
  have hcount : tallyOf ctx t'.items = tallyOf ctx t.items := htally
  have hsummary : summaryOf id (tallyOf ctx t.items) t'.positions =
      summaryOf id (tallyOf ctx t.items) t.positions := by
    rw [summaryOf, summaryOf, countP_inputs _ (fun _ => rfl) h.inputs_positions]
  have hothers : ∀ items positions, { t' with items := items, positions := positions } =
      { t with items := items, positions := positions } := by
    intro items positions
    rw [h.others]
  rw [recalculate_of_priceable loaded priceable,
    recalculate_of_priceable (hcontext ▸ loaded) priceable', hcontext, houtcome, hcount,
    h.repriced_items, h.rollUp_positions, hsummary, hothers]

theorem differInOutputs_recalculate (loaded : (loadContext t id false).result = .ok ctx)
    (priceable : Priceable ctx t.items) :
    DifferInOutputs ctx t (recalculate t id).tables := by
  rw [recalculate_tables loaded priceable]
  refine ⟨?_, ?_, rfl⟩
  · rw [List.forall₂_map_right_iff, List.forall₂_same]
    intro row _
    cases hcost : costOf? ctx row with
    | none => exact ⟨rfl, fun _ => rfl⟩
    | some cost => exact ⟨rfl, fun hnone => nomatch hnone⟩
  · rw [rollUp, List.forall₂_map_right_iff, List.forall₂_same]
    intro p _
    simp only [totalOf?_eq]
    by_cases hnone : costsAt ctx t.items p.id = []
    · simp only [if_pos hnone]
      exact ⟨trivial, fun _ => trivial⟩
    · simp only [if_neg hnone]
      exact ⟨rfl, fun h => absurd h hnone⟩

/-- A second recalculation returns the same and leaves every row as the first one left it; and
tables that differ in what a recalculation writes are the same after it. -/
theorem recalculate_idempotent {summary : Summary}
    (returned : (recalculate t id).outcome.result = .ok summary) :
    recalculate (recalculate t id).tables id = recalculate t id ∧
      ∃ ctx, (loadContext t id false).result = .ok ctx ∧
        ∀ t', DifferInOutputs ctx t t' → recalculate t' id = recalculate t id := by
  obtain ⟨ctx, hloaded, priceable, -⟩ := recalculate_eq_ok_iff.mp returned
  refine ⟨?_, ctx, hloaded, fun t' h => recalculate_congr hloaded priceable h⟩
  exact recalculate_congr hloaded priceable (differInOutputs_recalculate hloaded priceable)

end Run

/-- One item of material with a markup of ten per cent, and one of work that has no sequence; the
arguments are what may be stored with the material and its position. -/
def storedTables (cost coefficient total : Option Float) : Tables Float where
  tenders := [⟨"t-1", some "m-1"⟩]
  tactics := [⟨"m-1", some "T", .object [("мат", .array [.object [
      ("baseIndex", .int (-1)), ("action1", .string "multiply"),
      ("operand1Type", .string "markup"), ("operand1Key", .string "profit_own_forces"),
      ("operand1MultiplyFormat", .string "addOne")]])], .null⟩]
  parameters := [⟨"p-1", "profit_own_forces"⟩]
  percentages := [⟨some "t-1", some "p-1", some 10.0⟩]
  items :=
    [{ id := "i-1", itemType := "мат", totalAmount := some 0.1, tender := some "t-1"
       position := some "P1", materialCost := cost, coefficient := coefficient },
      { id := "i-2", itemType := "раб", totalAmount := some 7.0, tender := some "t-1"
        position := some "P2", workCost := some 3.0 }]
  positions := [{ id := "P1", tender := some "t-1", materialTotal := total },
    { id := "P2", tender := some "t-1", workTotal := some 3.0 }]

/-- Nothing stored at first, or a cost that was marked up once already. -/
theorem recalculate_idempotent_storedTables :
    ∃ summary, (recalculate (storedTables none none none) "t-1").outcome.result = .ok summary ∧
      recalculate (recalculate (storedTables none none none) "t-1").tables "t-1" =
        recalculate (storedTables none none none) "t-1" ∧
      ∃ ctx, (loadContext (storedTables none none none) "t-1" false).result = .ok ctx ∧
        DifferInOutputs ctx (storedTables none none none)
          (storedTables (some 0.11) (some 1.1) (some 0.11)) ∧
        recalculate (storedTables (some 0.11) (some 1.1) (some 0.11)) "t-1" =
          recalculate (storedTables none none none) "t-1" := by
  have hvalue : (recalculate (storedTables none none none) "t-1").outcome.result.toOption =
      some ⟨"t-1", 1, 1, 1⟩ := by decide +kernel
  have returned := eq_ok_of_toOption hvalue
  obtain ⟨hagain, ctx, hloaded, hother⟩ := recalculate_idempotent returned
  have hpriced : ((loadContext (storedTables none none none) "t-1" false).result.toOption.map
      fun ctx => (storedTables none none none).items.head?.map (costOf? ctx · |>.isSome)) =
        some (some true) := by decide +kernel
  rw [hloaded] at hpriced
  obtain ⟨cost, hcost⟩ := Option.isSome_iff_exists.mp (Option.some.inj (Option.some.inj hpriced))
  have hdiffer : DifferInOutputs ctx (storedTables none none none)
      (storedTables (some 0.11) (some 1.1) (some 0.11)) := by
    refine ⟨.cons ⟨rfl, fun hnone => ?_⟩ (.cons ⟨rfl, fun _ => rfl⟩ .nil),
      .cons ⟨rfl, fun hnone => ?_⟩ (.cons ⟨rfl, fun _ => rfl⟩ .nil), rfl⟩
    · cases hcost.symm.trans hnone
    · have hmem : cost ∈ costsAt ctx (storedTables none none none).items "P1" :=
        mem_costsAt.mpr ⟨_, List.mem_cons_self, rfl, hcost⟩
      exact absurd hnone (List.ne_nil_of_mem hmem)
  exact ⟨_, returned, hagain, ctx, hloaded, hdiffer, hother _ hdiffer⟩

end Store
end TenderPricing
