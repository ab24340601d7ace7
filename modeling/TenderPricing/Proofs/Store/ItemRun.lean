import TenderPricing.Proofs.Outcome
import TenderPricing.Store.Recalculation
/-!
A recalculation that reaches its end.

A run over the item table reaches its end iff every row of the tender can be priced.  It then
changes each row by itself, with the cost that `costOf?` gives for it, and its tally is a fold over
the rows.  `recalculate_eq_ok_iff` and `recalculate_tables` say what a whole recalculation returns
and leaves in these terms.
-/
namespace TenderPricing
namespace Store

open Markup Pricing

variable {α : Type} [Arithmetic α]

/-- The cost that a run gives to a row, none where it leaves the row as it is. -/
def costOf? (ctx : Context α) (row : ItemRow α) : Option (ItemCost α) :=
  if row.isOf ctx.tender then (rowCost ctx row).result.toOption.join else none

/-- Every row of the tender has a cost, or has none because its type has no sequence. -/
def Priceable (ctx : Context α) (rows : List (ItemRow α)) : Prop :=
  ∀ row ∈ rows, row.isOf ctx.tender = true → ∃ cost, (rowCost ctx row).result = .ok cost

def Tally.count (ctx : Context α) (tally : Tally α) (row : ItemRow α) : Tally α :=
  if row.isOf ctx.tender then tally.add row.position (costOf? ctx row) else tally

def tallyOf (ctx : Context α) (rows : List (ItemRow α)) : Tally α :=
  rows.foldl (Tally.count ctx) {}

section Row

variable {ctx : Context α} {row : ItemRow α}

theorem costOf?_of_ok {cost : Option (ItemCost α)} (own : row.isOf ctx.tender = true)
    (h : (rowCost ctx row).result = .ok cost) : costOf? ctx row = cost := by
  rw [costOf?, if_pos own, h]
  rfl

theorem costOf?_of_other (other : ¬ row.isOf ctx.tender = true) : costOf? ctx row = none :=
  if_neg other

theorem costOf?_eq_some_iff {cost : ItemCost α} :
    costOf? ctx row = some cost ↔
      row.isOf ctx.tender = true ∧ (rowCost ctx row).result = .ok (some cost) := by
  constructor
  · intro h
    by_cases own : row.isOf ctx.tender = true
    · cases hcost : (rowCost ctx row).result with
      | error e =>
        rw [costOf?, if_pos own, hcost] at h
        cases h
      | ok found =>
        rw [costOf?_of_ok own hcost] at h
        exact ⟨own, by rw [h]⟩
    · rw [costOf?_of_other own] at h
      cases h
  · intro h
    exact costOf?_of_ok h.1 h.2

end Row

/-! ## A run over the item table -/

theorem priceable_cons {ctx : Context α} {row : ItemRow α} {rest : List (ItemRow α)} :
    Priceable ctx (row :: rest) ↔
      (row.isOf ctx.tender = true → ∃ cost, (rowCost ctx row).result = .ok cost) ∧
        Priceable ctx rest :=
  List.forall_mem_cons

theorem priceItems_eq_ok_iff {ctx : Context α} {rows : List (ItemRow α)} :
    ∀ {tally tally' : Tally α}, (priceItems ctx tally rows).outcome.result = .ok tally' ↔
      Priceable ctx rows ∧ rows.foldl (Tally.count ctx) tally = tally' := by
  induction rows with
  | nil =>
    intro tally tally'
    have htrivial : Priceable ctx [] := List.forall_mem_nil _
    rw [and_iff_right htrivial]
    exact pure_eq_ok_iff
  | cons row rest ih =>
    intro tally tally'
    rw [priceable_cons, List.foldl_cons]
    by_cases own : row.isOf ctx.tender = true
    · cases hcost : (rowCost ctx row).result with
      | error e => simp [priceItems, own, hcost]
      | ok cost =>
        have hcount : Tally.count ctx tally row = tally.add row.position cost := by
          rw [Tally.count, if_pos own, costOf?_of_ok own hcost]
        simp [priceItems, own, hcost, ih, hcount]
    · have hcount : Tally.count ctx tally row = tally := if_neg own
      simp [priceItems, own, ih, hcount]

theorem priceItems_items {ctx : Context α} {rows : List (ItemRow α)}
    (priceable : Priceable ctx rows) :
    ∀ tally : Tally α,
      (priceItems ctx tally rows).items = rows.map fun row => repriced row (costOf? ctx row) := by
  induction rows with
  | nil => exact fun _ => rfl
  | cons row rest ih =>
    intro tally
    rw [priceable_cons] at priceable
    rw [List.map_cons]
    by_cases own : row.isOf ctx.tender = true
    · obtain ⟨cost, hcost⟩ := priceable.1 own
      simp only [priceItems, if_pos own, hcost, ih priceable.2, costOf?_of_ok own hcost]
    · simp only [priceItems, if_neg own, ih priceable.2, costOf?_of_other own]
      rfl

/-! ## What a run adds up -/

/-- The costs that a run adds up for a position, in the order of the rows. -/
def costsAt (ctx : Context α) (rows : List (ItemRow α)) (position : String) :
    List (ItemCost α) :=
  (rows.filter (·.position == some position)).filterMap (costOf? ctx)

def addCost (total : Split α) (cost : ItemCost α) : Split α :=
  (total.credit .material cost.material).credit .work cost.work

/-- A total that starts with its first cost. -/
def totalAfter (start : Option (Split α)) (costs : List (ItemCost α)) : Option (Split α) :=
  costs.foldl (fun total cost => some (addCost (total.getD .zero) cost)) start

theorem totalAfter_some {costs : List (ItemCost α)} :
    ∀ start : Split α, totalAfter (some start) costs = some (costs.foldl addCost start) := by
  induction costs with
  | nil => exact fun _ => rfl
  | cons cost rest ih => exact fun start => ih (addCost start cost)

theorem totalAfter_none {costs : List (ItemCost α)} :
    totalAfter none costs = if costs = [] then none else some (costs.foldl addCost .zero) := by
  cases costs with
  | nil => rfl
  | cons cost rest => exact totalAfter_some (addCost .zero cost)

section Totals

variable {ctx : Context α} {row : ItemRow α} {rest : List (ItemRow α)} {position : String}

theorem costsAt_cons_of_some {cost : ItemCost α} (hcost : costOf? ctx row = some cost)
    (hposition : row.position = some position) :
    costsAt ctx (row :: rest) position = cost :: costsAt ctx rest position := by
  simp [costsAt, hposition, hcost]

theorem costsAt_cons_of_none
    (h : costOf? ctx row = none ∨ row.position ≠ some position) :
    costsAt ctx (row :: rest) position = costsAt ctx rest position := by
  by_cases hposition : row.position = some position
  · have hcost : costOf? ctx row = none := h.resolve_right (not_not_intro hposition)
    simp [costsAt, hposition, hcost]
  · simp [costsAt, hposition]

theorem mem_costsAt {rows : List (ItemRow α)} {cost : ItemCost α} :
    cost ∈ costsAt ctx rows position ↔
      ∃ row ∈ rows, row.position = some position ∧ costOf? ctx row = some cost := by
  simp [costsAt, and_assoc]

theorem Tally.totals_count_of_some {tally : Tally α} {cost : ItemCost α}
    (hcost : costOf? ctx row = some cost) :
    (tally.count ctx row).totals =
      tally.totals.update row.position .zero fun total => addCost total cost := by
  rw [Tally.count, if_pos (costOf?_eq_some_iff.mp hcost).1, hcost]
  rfl

theorem Tally.totals_count_of_none {tally : Tally α} (hcost : costOf? ctx row = none) :
    (tally.count ctx row).totals = tally.totals := by
  rw [Tally.count, hcost]
  by_cases own : row.isOf ctx.tender = true
  · rw [if_pos own]
    rfl
  · rw [if_neg own]

/-- A run adds to the total of a position what its rows cost, one after the other. -/
theorem totals_lookup {rows : List (ItemRow α)} :
    ∀ tally : Tally α, (rows.foldl (Tally.count ctx) tally).totals.lookup (some position) =
      totalAfter (tally.totals.lookup (some position)) (costsAt ctx rows position) := by
  induction rows with
  | nil => exact fun _ => rfl
  | cons row rest ih =>
    intro tally
    rw [List.foldl_cons, ih]
    cases hcost : costOf? ctx row with
    | none =>
      rw [Tally.totals_count_of_none hcost, costsAt_cons_of_none (.inl hcost)]
    | some cost =>
      rw [Tally.totals_count_of_some hcost]
      by_cases hposition : row.position = some position
      · rw [costsAt_cons_of_some hcost hposition, hposition, Keyed.lookup_update_self]
        rfl
      · rw [costsAt_cons_of_none (.inr hposition),
          Keyed.lookup_update_of_ne fun h => hposition h.symm]

theorem totalOf?_eq (ctx : Context α) (rows : List (ItemRow α)) (p : PositionRow α) :
    totalOf? (tallyOf ctx rows).totals p =
      if costsAt ctx rows p.id = [] then none
      else some ((costsAt ctx rows p.id).foldl addCost .zero) := by
  rw [totalOf?, tallyOf, totals_lookup]
  exact totalAfter_none

end Totals

/-! ## A whole recalculation -/

section Run

variable {t : Tables α} {id : String} {ctx : Context α}

theorem loadContext_result (t : Tables α) (id : String) (withItems : Bool) :
    (loadContext t id withItems).result = do
      let row ← findTactic t id
      let tactic ←
        (Tactic.ofRaw row.sequences (row.name.getD "") row.baseCosts).mapError TenderError.tactic
      let percentages ← (loadPercentages t id).result
      let distribution ← (loadDistribution t id).result
      return {
        tender := id
        tactic, percentages, distribution
        exclusions := t.exclusionsOf id
        items := if withItems then (t.itemsOf id).map (·.toItem) else [] } := by
  unfold loadContext
  simp only [Logged.result_bind, Logged.result_lift, Logged.result_pure]
  rfl

theorem loadContext_eq_ok_iff {withItems : Bool} :
    (loadContext t id withItems).result = .ok ctx ↔
      ∃ row tactic percentages distribution, findTactic t id = .ok row ∧
        Tactic.ofRaw row.sequences (row.name.getD "") row.baseCosts = .ok tactic ∧
        (loadPercentages t id).result = .ok percentages ∧
        (loadDistribution t id).result = .ok distribution ∧
        ctx = {
          tender := id
          tactic, percentages, distribution
          exclusions := t.exclusionsOf id
          items := if withItems then (t.itemsOf id).map (·.toItem) else [] } := by
  rw [loadContext_result]
  simp only [bind_eq_ok_iff, pure_eq_ok_iff, mapError_eq_ok_iff]
  constructor
  · intro hloaded
    obtain ⟨row, hrow, tactic, htactic, percentages, hpercentages, distribution, hdistribution,
      h⟩ := hloaded
    exact ⟨row, tactic, percentages, distribution, hrow, htactic, hpercentages, hdistribution,
      h.symm⟩
  · intro hloaded
    obtain ⟨row, tactic, percentages, distribution, hrow, htactic, hpercentages, hdistribution,
      h⟩ := hloaded
    exact ⟨row, hrow, tactic, htactic, percentages, hpercentages, distribution, hdistribution,
      h.symm⟩

theorem loadContext_tender {withItems : Bool}
    (h : (loadContext t id withItems).result = .ok ctx) : ctx.tender = id := by
  obtain ⟨_, _, _, _, -, -, -, -, hctx⟩ := loadContext_eq_ok_iff.mp h
  rw [hctx]

/-- What a recalculation returns that reaches its end. -/
def summaryOf (id : String) (tally : Tally α) (positions : List (PositionRow α)) : Summary :=
  ⟨id, tally.updated, tally.skipped,
    positions.countP fun p => (totalOf? tally.totals p).isSome⟩

theorem recalculate_eq_ok_iff {summary : Summary} :
    (recalculate t id).outcome.result = .ok summary ↔
      ∃ ctx, (loadContext t id false).result = .ok ctx ∧ Priceable ctx t.items ∧
        summaryOf id (tallyOf ctx t.items) t.positions = summary := by
  unfold recalculate
  cases hloaded : (loadContext t id false).result with
  | error e => simp [hloaded]
  | ok ctx =>
    simp only [hloaded, Except.ok.injEq, exists_eq_left']
    cases hrun : (priceItems ctx {} t.items).outcome.result with
    | error e =>
      have hstuck : ¬ Priceable ctx t.items := by
        intro priceable
        rw [priceItems_eq_ok_iff.mpr ⟨priceable, rfl⟩] at hrun
        cases hrun
      simp [hstuck]
    | ok tally =>
      obtain ⟨priceable, htally⟩ := priceItems_eq_ok_iff.mp hrun
      simp [priceable, tallyOf, htally, summaryOf]

theorem recalculate_of_priceable (loaded : (loadContext t id false).result = .ok ctx)
    (priceable : Priceable ctx t.items) :
    recalculate t id = {
      tables := { t with
        items := t.items.map fun row => repriced row (costOf? ctx row)
        positions := rollUp (tallyOf ctx t.items).totals t.positions }
      flushed := true
      outcome := {
        notices := (loadContext t id false).notices ++
          (priceItems ctx {} t.items).outcome.notices ++
          [.recalculated id (tallyOf ctx t.items).updated (tallyOf ctx t.items).skipped]
        result := .ok (summaryOf id (tallyOf ctx t.items) t.positions) } } := by
  have hrun : (priceItems ctx {} t.items).outcome.result = .ok (tallyOf ctx t.items) :=
    priceItems_eq_ok_iff.mpr ⟨priceable, rfl⟩
  simp only [recalculate, loaded, hrun, priceItems_items priceable, summaryOf]

theorem recalculate_tables (loaded : (loadContext t id false).result = .ok ctx)
    (priceable : Priceable ctx t.items) :
    (recalculate t id).tables = { t with
      items := t.items.map fun row => repriced row (costOf? ctx row)
      positions := rollUp (tallyOf ctx t.items).totals t.positions } := by
  rw [recalculate_of_priceable loaded priceable]

end Run

end Store
end TenderPricing
