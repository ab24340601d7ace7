import TenderPricing.Proofs.Pricing.Conservation
import TenderPricing.Proofs.Store.Flush
/-!
What a recalculation leaves in the tables.

A recalculation that returns has written the cost of every row of the tender whose type has a
sequence, and the sums of these costs on the positions that the rows name.  It has written nothing
else, and the database has added nothing but the time at which an item was changed.  The costs are
summed before they are rounded, so in exact arithmetic the order of the rows makes no difference.
-/
namespace TenderPricing
namespace Store

open Markup Pricing

/-! ## What is counted -/

section Counts

variable {α : Type} [Arithmetic α]

/-- The row is one of the tender's and its type has a sequence. -/
def Sequenced (ctx : Context α) (row : ItemRow α) : Prop :=
  row.isOf ctx.tender = true ∧ ctx.tactic.sequenceFor row.itemType ≠ []

variable {ctx : Context α} {row : ItemRow α} {rows : List (ItemRow α)}

theorem rowCost_eq_none_iff :
    (rowCost ctx row).result = .ok none ↔ ctx.tactic.sequenceFor row.itemType = [] := by
  rw [rowCost, itemCost_result, ← List.isEmpty_iff]
  by_cases hempty : (ctx.tactic.sequenceFor row.itemType).isEmpty = true
  · simp [hempty]
  · rw [if_neg hempty, iff_false_right hempty]
    by_cases hbase : row.baseAmount ≤ 0.0
    · simp [hbase]
    · rw [if_neg hbase, bind_eq_ok_iff]
      intro h
      obtain ⟨e, -, h⟩ := h
      cases h

/-- A run gives a cost to the rows of the tender whose type has a sequence, and to no others. -/
theorem costOf?_isSome_iff (priceable : Priceable ctx rows) (hrow : row ∈ rows) :
    (costOf? ctx row).isSome = true ↔ Sequenced ctx row := by
  by_cases own : row.isOf ctx.tender = true
  · obtain ⟨cost, hcost⟩ := priceable row hrow own
    rw [costOf?_of_ok own hcost, Sequenced, and_iff_right own, Ne, ← rowCost_eq_none_iff, hcost]
    cases cost <;> simp
  · simp [costOf?_of_other own, Sequenced, own]

theorem Tally.updated_count (tally : Tally α) :
    (tally.count ctx row).updated =
      tally.updated + if (costOf? ctx row).isSome then 1 else 0 := by
  by_cases own : row.isOf ctx.tender = true
  · rw [Tally.count, if_pos own]
    cases costOf? ctx row <;> rfl
  · rw [Tally.count, if_neg own, costOf?_of_other own]
    rfl

theorem Tally.updated_add_skipped_count (tally : Tally α) :
    (tally.count ctx row).updated + (tally.count ctx row).skipped =
      tally.updated + tally.skipped + if row.isOf ctx.tender then 1 else 0 := by
  by_cases own : row.isOf ctx.tender = true
  · rw [Tally.count, if_pos own, if_pos own]
    cases costOf? ctx row with
    | none => exact (Nat.add_assoc ..).symm
    | some cost => exact Nat.add_right_comm ..
  · rw [Tally.count, if_neg own, if_neg own, Nat.add_zero]

theorem updated_foldl_count (ctx : Context α) (rows : List (ItemRow α)) :
    ∀ tally : Tally α, (rows.foldl (Tally.count ctx) tally).updated =
      tally.updated + rows.countP fun row => (costOf? ctx row).isSome := by
  induction rows with
  | nil => exact fun _ => rfl
  | cons row rest ih =>
    intro tally
    rw [List.foldl_cons, ih, Tally.updated_count, List.countP_cons]
    omega

theorem updated_add_skipped_foldl_count (ctx : Context α) (rows : List (ItemRow α)) :
    ∀ tally : Tally α, (rows.foldl (Tally.count ctx) tally).updated +
        (rows.foldl (Tally.count ctx) tally).skipped =
      tally.updated + tally.skipped + rows.countP (·.isOf ctx.tender) := by
  induction rows with
  | nil => exact fun _ => rfl
  | cons row rest ih =>
    intro tally
    rw [List.foldl_cons, ih, Tally.updated_add_skipped_count, List.countP_cons]
    omega

theorem updated_tallyOf (ctx : Context α) (rows : List (ItemRow α)) :
    (tallyOf ctx rows).updated = rows.countP fun row => (costOf? ctx row).isSome := by
  have hcount := updated_foldl_count ctx rows {}
  rwa [Nat.zero_add] at hcount

theorem updated_add_skipped_tallyOf (ctx : Context α) (rows : List (ItemRow α)) :
    (tallyOf ctx rows).updated + (tallyOf ctx rows).skipped = rows.countP (·.isOf ctx.tender) := by
  have hcount := updated_add_skipped_foldl_count ctx rows {}
  rwa [Nat.add_zero, Nat.zero_add] at hcount

end Counts

/-! ## What is summed -/

section Sums

def sumOf (costs : List (ItemCost Rat)) : Split Rat :=
  ⟨(costs.map (·.material)).sum, (costs.map (·.work)).sum⟩

theorem addCost_eq (total : Split Rat) (cost : ItemCost Rat) :
    addCost total cost = ⟨total.material + cost.material, total.work + cost.work⟩ := rfl

theorem foldl_addCost (costs : List (ItemCost Rat)) :
    ∀ total : Split Rat, costs.foldl addCost total =
      ⟨total.material + (sumOf costs).material, total.work + (sumOf costs).work⟩ := by
  induction costs with
  | nil =>
    intro total
    simp [sumOf]
  | cons cost rest ih =>
    intro total
    rw [List.foldl_cons, ih, addCost_eq]
    simp only [sumOf, List.map_cons, List.sum_cons, add_assoc]

theorem sumOf_perm {costs costs' : List (ItemCost Rat)} (same : costs.Perm costs') :
    sumOf costs' = sumOf costs := by
  rw [sumOf, sumOf, (same.map (·.material)).sum_eq, (same.map (·.work)).sum_eq]

theorem totalOf?_tallyOf (ctx : Context Rat) (rows : List (ItemRow Rat)) (p : PositionRow Rat) :
    totalOf? (tallyOf ctx rows).totals p =
      if costsAt ctx rows p.id = [] then none else some (sumOf (costsAt ctx rows p.id)) := by
  have hzero : (Split.zero : Split Rat) = ⟨0, 0⟩ := by
    rw [Split.zero, Arithmetic.exact_zero]
  rw [totalOf?_eq, foldl_addCost, hzero, zero_add, zero_add]

theorem totalOf?_perm {ctx ctx' : Context Rat} {rows rows' : List (ItemRow Rat)}
    (h : SamePrices ctx ctx') (same : rows.Perm rows') :
    totalOf? (tallyOf ctx' rows').totals = totalOf? (tallyOf ctx rows).totals := by
  funext p
  have hcosts := h.costsAt same p.id
  have hnone : costsAt ctx' rows' p.id = [] ↔ costsAt ctx rows p.id = [] := by
    rw [← List.length_eq_zero_iff, ← List.length_eq_zero_iff, hcosts.length_eq]
  rw [totalOf?_tallyOf, totalOf?_tallyOf, sumOf_perm hcosts]
  simp only [hnone]

end Sums

/-! ## The positions that are asked for -/

section Query

variable {α : Type}

/-- The positions that a recalculation asks for: those named by a key of the totals. -/
def queriedPositions (totals : Keyed (Option String) (Split α))
    (positions : List (PositionRow α)) : List (PositionRow α) :=
  positions.filter fun p => (totals.map Prod.fst).contains (some p.id)

theorem queriedPositions_eq (totals : Keyed (Option String) (Split α))
    (positions : List (PositionRow α)) :
    queriedPositions totals positions = positions.filter fun p => (totalOf? totals p).isSome := by
  simp only [queriedPositions, Keyed.contains_keys, totalOf?]

end Query

/-! ## What is written -/

section Items

variable {α : Type} [Arithmetic α]

/-- What a recalculation makes of a row of the item table. -/
inductive ItemWritten (ctx : Context α) (row : ItemRow α) : ItemRow α → Prop where
  | priced {cost : ItemCost α} (sequenced : Sequenced ctx row)
      (priced : (rowCost ctx row).result = .ok (some cost)) :
      ItemWritten ctx row { row with
        materialCost := some (Arithmetic.roundToCents cost.material)
        workCost := some (Arithmetic.roundToCents cost.work)
        coefficient := some cost.coefficient }
  | kept (unsequenced : ¬ Sequenced ctx row) : ItemWritten ctx row row

/-- What the database holds of the row then: what was written, with the time of the change if the
row had to be sent. -/
inductive ItemStored (db : Backend α) (ctx : Context α) (row : ItemRow α) : ItemRow α → Prop where
  | priced {written : ItemRow α} (sequenced : Sequenced ctx row)
      (write : ItemWritten ctx row written) :
      ItemStored db ctx row { written with
        updatedAt := if db.items.sends row written then some db.now else row.updatedAt }
  | kept (unsequenced : ¬ Sequenced ctx row) : ItemStored db ctx row row

variable {ctx : Context α} {row : ItemRow α} {rows : List (ItemRow α)}

theorem itemWritten_repriced (priceable : Priceable ctx rows) (hrow : row ∈ rows) :
    ItemWritten ctx row (repriced row (costOf? ctx row)) := by
  have hiff := costOf?_isSome_iff priceable hrow
  cases hcost : costOf? ctx row with
  | none =>
    rw [hcost] at hiff
    exact .kept fun sequenced => nomatch hiff.mpr sequenced
  | some cost =>
    rw [hcost] at hiff
    exact .priced (hiff.mp rfl) (costOf?_eq_some_iff.mp hcost).2

theorem ItemWritten.stored {written : ItemRow α} (write : ItemWritten ctx row written)
    (db : Backend α) : ItemStored db ctx row (db.stored row written) := by
  cases write with
  | priced sequenced priced =>
    rw [Backend.stored_eq]
    exact .priced sequenced (.priced sequenced priced)
  | kept unsequenced =>
    rw [Backend.stored_self]
    exact .kept unsequenced

end Items

/-- Some row that is priced names the position. -/
def Referenced (ctx : Context Rat) (items : List (ItemRow Rat)) (p : PositionRow Rat) : Prop :=
  ∃ row ∈ items, Sequenced ctx row ∧ row.position = some p.id

/-- What a recalculation makes of a row of the position table. -/
inductive PositionWritten (ctx : Context Rat) (items : List (ItemRow Rat)) (p : PositionRow Rat) :
    PositionRow Rat → Prop where
  | rolledUp (referenced : Referenced ctx items p) :
      PositionWritten ctx items p { p with
        materialTotal := some (Arithmetic.roundToCents (sumOf (costsAt ctx items p.id)).material)
        workTotal := some (Arithmetic.roundToCents (sumOf (costsAt ctx items p.id)).work) }
  | kept (unreferenced : ¬ Referenced ctx items p) : PositionWritten ctx items p p

/-- A recalculation rolls up what it prices and touches nothing else. -/
structure RollsUp (db : Backend Rat) (ctx : Context Rat) (before after : Tables Rat)
    (summary : Summary) : Prop where
  items : List.Forall₂ (ItemStored db ctx) before.items after.items
  positions : List.Forall₂ (PositionWritten ctx before.items) before.positions after.positions
  others : after = { before with items := after.items, positions := after.positions }
  counted : summary.updated + summary.skipped = (before.itemsOf ctx.tender).length
  /-- Every position that is asked for has a total, and is rewritten. -/
  queried : ∃ tally, (priceItems ctx {} before.items).outcome.result = .ok tally ∧
    (∀ p ∈ queriedPositions tally.totals before.positions,
      Referenced ctx before.items p ∧
        tally.totals.lookup (some p.id) = some (sumOf (costsAt ctx before.items p.id))) ∧
    (∀ p ∈ before.positions, Referenced ctx before.items p →
      p ∈ queriedPositions tally.totals before.positions) ∧
    summary.positionsUpdated = (queriedPositions tally.totals before.positions).length

section Run

variable {db : Backend Rat} {ctx : Context Rat} {t t' : Tables Rat} {id : String}
variable {summary : Summary}

theorem costsAt_ne_nil_iff {rows : List (ItemRow Rat)} (priceable : Priceable ctx rows)
    (p : PositionRow Rat) : costsAt ctx rows p.id ≠ [] ↔ Referenced ctx rows p := by
  constructor
  · intro h
    obtain ⟨cost, hmem⟩ := List.exists_mem_of_ne_nil _ h
    obtain ⟨row, hrow, hposition, hcost⟩ := mem_costsAt.mp hmem
    have hsome : (costOf? ctx row).isSome = true := Option.isSome_iff_exists.mpr ⟨cost, hcost⟩
    exact ⟨row, hrow, (costOf?_isSome_iff priceable hrow).mp hsome, hposition⟩
  · intro h
    obtain ⟨row, hrow, sequenced, hposition⟩ := h
    have hsome := (costOf?_isSome_iff priceable hrow).mpr sequenced
    obtain ⟨cost, hcost⟩ := Option.isSome_iff_exists.mp hsome
    exact List.ne_nil_of_mem (mem_costsAt.mpr ⟨row, hrow, hposition, hcost⟩)

theorem mem_queriedPositions_iff {rows : List (ItemRow Rat)} (priceable : Priceable ctx rows)
    {positions : List (PositionRow Rat)} {p : PositionRow Rat} :
    p ∈ queriedPositions (tallyOf ctx rows).totals positions ↔
      p ∈ positions ∧ Referenced ctx rows p := by
  rw [queriedPositions_eq, List.mem_filter, totalOf?_tallyOf, ← costsAt_ne_nil_iff priceable]
  by_cases hnone : costsAt ctx rows p.id = [] <;> simp [hnone]

theorem rollsUp_of_taken {stored : Tables Rat} (loaded : (loadContext t id false).result = .ok ctx)
    (priceable : Priceable ctx t.items)
    (taken : db.flush? t (recalculate t id).tables = some stored) :
    RollsUp db ctx t stored (summaryOf id (tallyOf ctx t.items) t.positions) := by
  have htables : (recalculate t id).tables = t.mapRows _ _ := recalculate_tables loaded priceable
  rw [htables, Backend.flush?_mapRows, Option.ite_none_left_eq_some, Option.some.injEq] at taken
  obtain ⟨-, rfl⟩ := taken
  refine ⟨?_, ?_, rfl, ?_, tallyOf ctx t.items, priceItems_eq_ok_iff.mpr ⟨priceable, rfl⟩,
    ?_, ?_, ?_⟩
  · rw [Tables.mapRows, List.forall₂_map_right_iff, List.forall₂_same]
    exact fun row hrow => (itemWritten_repriced priceable hrow).stored db
  · rw [Tables.mapRows, List.forall₂_map_right_iff, List.forall₂_same]
    intro p _
    simp only [totalOf?_tallyOf]
    have hiff := costsAt_ne_nil_iff priceable p
    by_cases hnone : costsAt ctx t.items p.id = []
    · simp only [if_pos hnone]
      exact .kept fun referenced => hiff.mpr referenced hnone
    · simp only [if_neg hnone]
      exact .rolledUp (hiff.mp hnone)
  · rw [Tables.itemsOf, ← List.countP_eq_length_filter]
    exact updated_add_skipped_tallyOf ctx t.items
  · intro p hp
    have referenced := ((mem_queriedPositions_iff priceable).mp hp).2
    have htotal := totalOf?_tallyOf ctx t.items p
    rw [if_neg ((costsAt_ne_nil_iff priceable p).mpr referenced)] at htotal
    exact ⟨referenced, htotal⟩
  · exact fun p hp referenced => (mem_queriedPositions_iff priceable).mpr ⟨hp, referenced⟩
  · rw [queriedPositions_eq, ← List.countP_eq_length_filter]
    rfl

/-- In another order of the rows, a run returns the same and changes each row alike. -/
theorem recalculate_of_sameRows (keys : UniqueKeys t) (same : SameRows t t')
    (returned : (recalculate t id).outcome.result = .ok summary) :
    (recalculate t' id).outcome.result = .ok summary ∧
      ∃ f g, (recalculate t id).tables = t.mapRows f g ∧
        (recalculate t' id).tables = t'.mapRows f g := by
  obtain ⟨ctx, loaded, priceable, hsummary⟩ := recalculate_eq_ok_iff.mp returned
  obtain ⟨ctx', loaded', h⟩ := loadContext_of_sameRows keys same loaded
  have priceable' : Priceable ctx' t'.items := h.priceable same.items priceable
  have hcosts : costOf? ctx' = costOf? ctx := funext h.costOf?
  have htotals := totalOf?_perm h same.items
  have hupdated : (tallyOf ctx' t'.items).updated = (tallyOf ctx t.items).updated := by
    rw [updated_tallyOf, updated_tallyOf, hcosts, same.items.countP_eq]
  have hsum := updated_add_skipped_tallyOf ctx t.items
  have hsum' := updated_add_skipped_tallyOf ctx' t'.items
  rw [h.tender, ← same.items.countP_eq] at hsum'
  have hskipped : (tallyOf ctx' t'.items).skipped = (tallyOf ctx t.items).skipped := by omega
  constructor
  · refine recalculate_eq_ok_iff.mpr ⟨ctx', loaded', priceable', ?_⟩
    rw [← hsummary, summaryOf, summaryOf, hupdated, hskipped, htotals, same.positions.countP_eq]
  · refine ⟨_, _, recalculate_tables loaded priceable, ?_⟩
    rw [recalculate_tables loaded' priceable', hcosts, rollUp, htotals]
    rfl

end Run

/-- Two items of material on one position, an item of work that has no sequence, and an item of
another tender. -/
def sharedPositionTables : Tables Rat where
  tenders := [⟨"t-1", some "m-1"⟩, ⟨"t-2", none⟩]
  tactics := [⟨"m-1", some "T", .object [("мат", .array [.object [
      ("baseIndex", .int (-1)), ("action1", .string "multiply"),
      ("operand1Type", .string "markup"), ("operand1Key", .string "profit_own_forces"),
      ("operand1MultiplyFormat", .string "addOne")]])], .null⟩]
  parameters := [⟨"p-1", "profit_own_forces"⟩, ⟨"p-2", "mbp_gsm"⟩]
  percentages := [⟨some "t-1", some "p-1", some 10⟩, ⟨some "t-1", some "p-2", some 5⟩]
  items :=
    [{ id := "i-1", itemType := "мат", totalAmount := some (13 / 100), tender := some "t-1"
       position := some "P1" },
      { id := "i-2", itemType := "раб", totalAmount := some 7, tender := some "t-1"
        position := some "P2" },
      { id := "i-3", itemType := "мат", totalAmount := some (13 / 100), tender := some "t-1"
        position := some "P1" },
      { id := "i-4", itemType := "мат", totalAmount := some 5, tender := some "t-2"
        position := some "P2" }]
  positions := [{ id := "P1", tender := some "t-1" }, { id := "P2", tender := some "t-1" }]

def reversedTables (t : Tables Rat) : Tables Rat :=
  { t with percentages := t.percentages.reverse, items := t.items.reverse }

theorem sameRows_reversedTables (t : Tables Rat) : SameRows t (reversedTables t) where
  roles := .refl _
  users := .refl _
  tenders := .refl _
  tactics := .refl _
  parameters := .refl _
  percentages := (List.reverse_perm _).symm
  distributions := .refl _
  exclusions := .refl _
  items := (List.reverse_perm _).symm
  positions := .refl _

/-- A database that numbers are stored in as they are. -/
def exactBackend : Backend Rat := numericColumns id 7

-- each item costs 0.143 and stores 0.14, but the position stores 0.29
example : (recalculateOn exactBackend sharedPositionTables "t-1").stored.items.map
        (fun row => (row.materialCost, row.updatedAt)) =
      [(some (7 / 50), some 7), (none, none), (some (7 / 50), some 7), (none, none)] ∧
    (recalculateOn exactBackend sharedPositionTables "t-1").stored.positions.map
        (·.materialTotal) = [some (29 / 100), none] := by
  decide +kernel

end Store
end TenderPricing
