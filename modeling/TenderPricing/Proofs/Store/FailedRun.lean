import TenderPricing.Proofs.Markup.Safety
import TenderPricing.Proofs.Store.Loading
import TenderPricing.Proofs.Store.RollUp
import TenderPricing.Proofs.Store.Session
/-!
A recalculation that fails.

What can be wrong with a configuration is found while the context is loaded, before the first row is
written.  Once it is loaded only arithmetic can fail, at some row, and the run stops there: the rows
before it are what a run that returns makes of them, and nothing else is written.  A run that gets
past its last row can still be refused by the database, and is then undone.
-/
namespace TenderPricing
namespace Store

open Markup Pricing

variable {α : Type} [Arithmetic α]

/-! ## Costs of loaded contexts -/

section Cost

variable {t : Tables α} {id : String} {ctx : Context α}

theorem sequenceFor_of_loaded {withItems : Bool}
    (loaded : (loadContext t id withItems).result = .ok ctx) (itemType : String) :
    Valid (ctx.tactic.sequenceFor itemType) ∧
      ∀ step ∈ ctx.tactic.sequenceFor itemType, step.Supported := by
  obtain ⟨row, tactic, _, _, -, htactic, -, -, rfl⟩ := loadContext_eq_ok_iff.mp loaded
  rw [Tactic.ofRaw, bind_eq_ok_iff] at htactic
  obtain ⟨sequences, hsequences, htactic⟩ := htactic
  rw [bind_eq_ok_iff] at htactic
  obtain ⟨costs, -, htactic⟩ := htactic
  rw [pure_eq_ok_iff] at htactic
  subst htactic
  let P (steps : List (Step α)) : Prop := Valid steps ∧ ∀ step ∈ steps, step.Supported
  have hsafe : ∀ entry ∈ sequences, P entry.2 := forall_mem_sequencesOfRaw
    (fun _ _ _ h => ⟨valid_of_sequenceOfRaw h, supported_of_sequenceOfRaw h⟩) hsequences
  have hempty : P [] := ⟨rfl, List.forall_mem_nil _⟩
  exact Keyed.lookup_getD_of_forall hsafe hempty

/-- Once the context is loaded, the cost of a row can fail for its arithmetic only. -/
theorem rowCost_ends (loaded : (loadContext t id false).result = .ok ctx) (row : ItemRow α) :
    Ends (fun _ => True) (NumericFailure α row.itemType) (rowCost ctx row).result := by
  obtain ⟨valid, supported⟩ := sequenceFor_of_loaded loaded row.itemType
  have hsteps : ∀ excluded,
      Valid (pricingSteps ctx.tactic row.itemType excluded) ∧
        ∀ step ∈ pricingSteps ctx.tactic row.itemType excluded, step.Supported := by
    intro excluded
    cases excluded with
    | false => exact ⟨valid, supported⟩
    | true =>
      exact ⟨valid_withoutGrowth valid row.itemType, supported_withoutGrowth supported row.itemType⟩
  rw [rowCost, itemCost_result]
  by_cases hempty : (ctx.tactic.sequenceFor row.itemType).isEmpty = true
  · rw [if_pos hempty]
    exact trivial
  · rw [if_neg hempty]
    by_cases hbase : row.baseAmount ≤ 0.0
    · rw [if_pos hbase]
      exact trivial
    · rw [if_neg hbase]
      obtain ⟨hvalid, hsupported⟩ := hsteps (ctx.exclusions.covers row.toItem)
      have hrates : ctx.rates.Total := Rates.ofTable_total ctx.percentages
      exact (evaluate_ends row.baseAmount row.itemType hrates hvalid hsupported).bind
        fun _ _ => trivial

end Cost

/-! ## The row where a run stops -/

section Rows

variable {ctx : Context α} {before after : List (ItemRow α)} {row : ItemRow α}
variable {failure : EvaluationError}

/-- A run over the item table fails at the first row of the tender that cannot be priced. -/
theorem priceItems_eq_error_iff {rows : List (ItemRow α)} {e : TenderError} :
    ∀ {tally : Tally α}, (priceItems ctx tally rows).outcome.result = .error e ↔
      ∃ before row after failure, rows = before ++ row :: after ∧ Priceable ctx before ∧
        row.isOf ctx.tender = true ∧ (rowCost ctx row).result = .error failure ∧
        e = .evaluation failure := by
  induction rows with
  | nil =>
    intro tally
    refine iff_of_false (fun h => nomatch h) ?_
    rintro ⟨before, row, after, _, hrows, -⟩
    exact List.append_ne_nil_of_right_ne_nil before (List.cons_ne_nil row after) hrows.symm
  | cons first rest ih =>
    intro tally
    constructor
    · intro h
      by_cases own : first.isOf ctx.tender = true
      · cases hcost : (rowCost ctx first).result with
        | error failure =>
          simp only [priceItems, if_pos own, hcost, Except.error.injEq] at h
          exact ⟨[], first, rest, failure, rfl, List.forall_mem_nil _, own, hcost, h.symm⟩
        | ok cost =>
          simp only [priceItems, if_pos own, hcost] at h
          obtain ⟨before, row, after, failure, rfl, hpriceable, hrow⟩ := ih.mp h
          exact ⟨first :: before, row, after, failure, rfl,
            priceable_cons.mpr ⟨fun _ => ⟨cost, hcost⟩, hpriceable⟩, hrow⟩
      · simp only [priceItems, if_neg own] at h
        obtain ⟨before, row, after, failure, rfl, hpriceable, hrow⟩ := ih.mp h
        exact ⟨first :: before, row, after, failure, rfl,
          priceable_cons.mpr ⟨fun hown => absurd hown own, hpriceable⟩, hrow⟩
    · rintro ⟨before, row, after, failure, hrows, hpriceable, own, hfails, rfl⟩
      cases before with
      | nil =>
        obtain ⟨rfl, rfl⟩ := List.cons.inj hrows
        simp only [priceItems, if_pos own, hfails]
      | cons first' before =>
        obtain ⟨rfl, rfl⟩ := List.cons.inj hrows
        rw [priceable_cons] at hpriceable
        have hrest : ∀ tally : Tally α,
            (priceItems ctx tally (before ++ row :: after)).outcome.result =
              .error (.evaluation failure) := fun _ =>
          ih.mpr ⟨before, row, after, failure, rfl, hpriceable.2, own, hfails, rfl⟩
        by_cases hown : first.isOf ctx.tender = true
        · obtain ⟨cost, hcost⟩ := hpriceable.1 hown
          simp only [priceItems, if_pos hown, hcost]
          exact hrest _
        · simp only [priceItems, if_neg hown]
          exact hrest _

/-- A run that stops has priced the rows before the one where it stops, and left the others. -/
theorem priceItems_items_of_error (priceable : Priceable ctx before)
    (own : row.isOf ctx.tender = true) (fails : (rowCost ctx row).result = .error failure) :
    ∀ tally : Tally α, (priceItems ctx tally (before ++ row :: after)).items =
      (before.map fun r => repriced r (costOf? ctx r)) ++ row :: after := by
  induction before with
  | nil =>
    intro tally
    simp only [List.nil_append, List.map_nil, priceItems, if_pos own, fails]
  | cons first before ih =>
    intro tally
    rw [priceable_cons] at priceable
    rw [List.cons_append, List.map_cons, List.cons_append]
    by_cases hown : first.isOf ctx.tender = true
    · obtain ⟨cost, hcost⟩ := priceable.1 hown
      simp only [priceItems, if_pos hown, hcost, ih priceable.2, costOf?_of_ok hown hcost]
    · simp only [priceItems, if_neg hown, ih priceable.2, costOf?_of_other hown]
      rfl

theorem itemWrites_of_error (priceable : Priceable ctx before) (own : row.isOf ctx.tender = true)
    (fails : (rowCost ctx row).result = .error failure) :
    ∀ place, itemWrites ctx place (before ++ row :: after) = itemWrites ctx place before := by
  induction before with
  | nil =>
    intro place
    simp only [List.nil_append, itemWrites, if_pos own, fails]
  | cons first before ih =>
    intro place
    rw [priceable_cons] at priceable
    by_cases hown : first.isOf ctx.tender = true
    · obtain ⟨cost, hcost⟩ := priceable.1 hown
      cases cost <;> simp only [List.cons_append, itemWrites, if_pos hown, hcost, ih priceable.2]
    · simp only [List.cons_append, itemWrites, if_neg hown, ih priceable.2]

/-- Rows that can all be priced are written where they have a cost, each at its own place. -/
theorem mem_itemWrites_iff {action : Action α} {rows : List (ItemRow α)}
    (priceable : Priceable ctx rows) :
    ∀ {place : Nat}, action ∈ itemWrites ctx place rows ↔
      ∃ i r cost, rows[i]? = some r ∧ costOf? ctx r = some cost ∧
        action = .writeItem (place + i) cost := by
  induction rows with
  | nil => simp [itemWrites]
  | cons first rest ih =>
    intro place
    rw [priceable_cons] at priceable
    -- a write of a later row, told from the place of the next row and from that of this one
    have hlater : action ∈ itemWrites ctx (place + 1) rest ↔
        ∃ i r cost, (first :: rest)[i + 1]? = some r ∧ costOf? ctx r = some cost ∧
          action = .writeItem (place + (i + 1)) cost := by
      rw [ih priceable.2]
      simp only [List.getElem?_cons_succ, Nat.add_assoc, Nat.add_comm 1]
    have hsplit : (∃ i r cost, (first :: rest)[i]? = some r ∧ costOf? ctx r = some cost ∧
        action = .writeItem (place + i) cost) ↔
          (∃ cost, costOf? ctx first = some cost ∧ action = .writeItem place cost) ∨
            action ∈ itemWrites ctx (place + 1) rest := by
      rw [hlater]
      constructor
      · rintro ⟨i, r, cost, hget, hcost, haction⟩
        cases i with
        | zero => exact .inl ⟨cost, by rwa [Option.some.inj hget], haction⟩
        | succ i => exact .inr ⟨i, r, cost, hget, hcost, haction⟩
      · rintro (⟨cost, hcost, haction⟩ | ⟨i, hi⟩)
        · exact ⟨0, first, cost, rfl, hcost, haction⟩
        · exact ⟨i + 1, hi⟩
    rw [hsplit]
    by_cases own : first.isOf ctx.tender = true
    · obtain ⟨cost, hcost⟩ := priceable.1 own
      rw [costOf?_of_ok own hcost]
      cases cost <;> simp [itemWrites, own, hcost]
    · simp [itemWrites, own, costOf?_of_other own]

end Rows

/-! ## Failed recalculations -/

/-- A failure of arithmetic: a division by zero or a result that is not finite. -/
inductive TenderError.IsNumeric : TenderError → Prop
  | divisionByZero (sequence : String) (step : Int) :
    IsNumeric (.evaluation (.divisionByZero sequence step))
  | nonFinite (sequence : String) (step : Int) : IsNumeric (.evaluation (.nonFinite sequence step))

theorem TenderError.isNumeric_of_failure {sequence : String} {failure : EvaluationError}
    (h : NumericFailure α sequence failure) : (TenderError.evaluation failure).IsNumeric := by
  cases h with
  | divisionByZero step => exact .divisionByZero sequence step
  | nonFinite step => exact .nonFinite sequence step

/-- Loading a context computes nothing, so its failures are not numeric. -/
theorem loadContext_ends_notNumeric (t : Tables α) (id : String) :
    Ends (fun _ => True) (fun e => ¬ e.IsNumeric) (loadContext t id false).result := by
  have hfind : Ends (fun _ => True) (fun e => ¬ e.IsNumeric) (findTactic t id) := by
    cases hfound : findTactic t id with
    | ok row => exact trivial
    | error e =>
      have notFound := (findTactic_eq_error_iff.mp hfound).notFound
      intro hnumeric
      cases hnumeric <;> cases notFound
  have htactic : ∀ read : Except LoadError (Tactic α),
      Ends (fun _ => True) (fun e => ¬ e.IsNumeric) (read.mapError TenderError.tactic) := by
    intro read
    cases read with
    | ok tactic => exact trivial
    | error e => exact fun hnumeric => nomatch hnumeric
  have hpercentages : Ends (fun _ => True) (fun e => ¬ e.IsNumeric)
      (loadPercentages t id).result := by
    unfold loadPercentages
    cases t.tender? id with
    | none => exact fun hnumeric => nomatch hnumeric
    | some tender => cases t.percentagesOf id <;> exact trivial
  have hdistribution : Ends (fun _ => True) (fun e => ¬ e.IsNumeric)
      (loadDistribution t id).result := by
    unfold loadDistribution
    cases t.distributionOf? id with
    | none => exact trivial
    | some settings =>
      rw [Logged.result_lift]
      cases Distribution.ofMembers settings.targets with
      | ok distribution => exact trivial
      | error fault => exact fun hnumeric => nomatch hnumeric
  rw [loadContext_result]
  exact hfind.bind fun _ _ => (htactic _).bind fun _ _ => hpercentages.bind fun _ _ =>
    hdistribution.bind fun _ _ => trivial

/-- A run fails for its arithmetic, not for its configuration and not in the database. -/
inductive RunFault.IsNumeric : RunFault → Prop
  | tender {error : TenderError} (numeric : error.IsNumeric) : IsNumeric (.tender error)

section Stop

variable {t : Tables α} {id : String} {ctx : Context α} {before after : List (ItemRow α)}
variable {row : ItemRow α} {failure : EvaluationError}

theorem recalculate_of_error (loaded : (loadContext t id false).result = .ok ctx)
    (rows : t.items = before ++ row :: after) (priceable : Priceable ctx before)
    (own : row.isOf ctx.tender = true) (fails : (rowCost ctx row).result = .error failure) :
    (recalculate t id).tables =
        { t with items := (before.map fun r => repriced r (costOf? ctx r)) ++ row :: after } ∧
      recalculationWrites t id = itemWrites ctx 0 before := by
  have hstops : (priceItems ctx {} t.items).outcome.result = .error (.evaluation failure) :=
    priceItems_eq_error_iff.mpr ⟨before, row, after, failure, rows, priceable, own, fails, rfl⟩
  constructor
  · simp only [recalculate, loaded, hstops]
    rw [rows, priceItems_items_of_error priceable own fails]
  · simp only [recalculationWrites, loaded, hstops, List.append_nil]
    rw [rows, itemWrites_of_error priceable own fails]

end Stop

/-- What a recalculation leaves that stops at a row of the item table. -/
structure StoppedAt (db : Backend α) (t : Tables α) (id : String) (e : RunFault)
    (ctx : Context α) (before : List (ItemRow α)) (row : ItemRow α) (after : List (ItemRow α)) :
    Prop where
  loaded : (loadContext t id false).result = .ok ctx
  rows : t.items = before ++ row :: after
  /-- The row is the first of the tender that has no cost for its arithmetic. -/
  first : Priceable ctx before
  own : row.isOf id = true
  fails : ∃ failure, (rowCost ctx row).result = .error failure ∧
    NumericFailure α row.itemType failure ∧ e = .tender (.evaluation failure)
  /-- The run has flushed nothing. -/
  unflushed : (recalculate t id).flushed = false
  /-- Changed are the rows before it whose type has a sequence, and nothing else. -/
  changed : ∃ written, List.Forall₂ (ItemWritten ctx) before written ∧
    (recalculateOn db t id).session = { t with items := written ++ row :: after }
  /-- The writes by which it came to that, each with the cost of its row. -/
  writes : ∀ action, action ∈ recalculationWrites t id ↔ ∃ i r cost, before[i]? = some r ∧
    Sequenced ctx r ∧ (rowCost ctx r).result = .ok (some cost) ∧ action = .writeItem i cost
  /-- A run over the rows before it alone returns. -/
  returns : ∃ summary, (recalculate { t with items := before } id).outcome.result = .ok summary
  /-- Every run that returns makes the same of the same row. -/
  asReturned : ∀ items summary,
    (recalculate { t with items := items } id).outcome.result = .ok summary →
      ∀ (i j : Nat) (r : ItemRow α), before[i]? = some r → items[j]? = some r →
        (recalculate { t with items := items } id).tables.items[j]? =
          (recalculateOn db t id).session.items[i]?

section Failure

variable {db : Backend α} {t : Tables α} {id : String} {ctx : Context α}

theorem loadContext_items (items : List (ItemRow α)) :
    loadContext { t with items := items } id false = loadContext t id false :=
  rfl

theorem flushed_of_error {e : TenderError}
    (failed : (recalculate t id).outcome.result = .error e) :
    (recalculate t id).flushed = false := by
  rw [recalculate_flushed, failed]
  rfl

theorem stoppedAt_of_rowCost {before after : List (ItemRow α)} {row : ItemRow α}
    {failure : EvaluationError} (loaded : (loadContext t id false).result = .ok ctx)
    (rows : t.items = before ++ row :: after) (priceable : Priceable ctx before)
    (own : row.isOf ctx.tender = true) (fails : (rowCost ctx row).result = .error failure)
    (failed : (recalculate t id).outcome.result = .error (.evaluation failure)) :
    StoppedAt db t id (.tender (.evaluation failure)) ctx before row after := by
  obtain ⟨tables, writes⟩ := recalculate_of_error loaded rows priceable own fails
  have session : (recalculateOn db t id).session = { t with
      items := (before.map fun r => repriced r (costOf? ctx r)) ++ row :: after } := by
    rw [recalculateOn_of_error failed, tables]
  have loadedWith : ∀ items, (loadContext { t with items := items } id false).result = .ok ctx := by
    intro items
    rw [loadContext_items]
    exact loaded
  refine ⟨loaded, rows, priceable, loadContext_tender loaded ▸ own,
    ⟨failure, fails, (rowCost_ends loaded row).error fails, rfl⟩, flushed_of_error failed,
    ⟨_, ?_, session⟩, fun action => ?_, ?_, ?_⟩
  · rw [List.forall₂_map_right_iff, List.forall₂_same]
    exact fun r hr => itemWritten_repriced priceable hr
  · rw [writes, mem_itemWrites_iff priceable]
    simp only [Nat.zero_add]
    constructor
    · rintro ⟨i, r, cost, hget, hcost, rfl⟩
      obtain ⟨hown, hresult⟩ := costOf?_eq_some_iff.mp hcost
      have hsequenced : Sequenced ctx r :=
        (costOf?_isSome_iff priceable (List.mem_of_getElem? hget)).mp (by rw [hcost]; rfl)
      exact ⟨i, r, cost, hget, hsequenced, hresult, rfl⟩
    · rintro ⟨i, r, cost, hget, hsequenced, hresult, rfl⟩
      exact ⟨i, r, cost, hget, costOf?_eq_some_iff.mpr ⟨hsequenced.1, hresult⟩, rfl⟩
  · exact ⟨_, recalculate_eq_ok_iff.mpr ⟨ctx, loadedWith before, priceable, rfl⟩⟩
  · intro items summary returned i j r hbefore hitems
    obtain ⟨ctx', hloaded', priceable', -⟩ := recalculate_eq_ok_iff.mp returned
    have hctx : ctx' = ctx := Except.ok.inj (hloaded'.symm.trans (loadedWith items))
    subst hctx
    have hlt : i < (before.map fun r => repriced r (costOf? ctx' r)).length := by
      rw [List.length_map]
      exact (List.getElem?_eq_some_iff.mp hbefore).1
    rw [recalculate_tables hloaded' priceable', session, List.getElem?_append_left hlt,
      List.getElem?_map, List.getElem?_map, hbefore, hitems]

/-- A run that fails has either not loaded its context, and then written nothing, or stopped at the
first row of the tender that cannot be priced. -/
theorem recalculate_error_cases (db : Backend α) {e : TenderError}
    (failed : (recalculate t id).outcome.result = .error e) :
    (¬ e.IsNumeric ∧ (loadContext t id false).result = .error e ∧ recalculationWrites t id = [] ∧
        (recalculate t id).tables = t) ∨
      (e.IsNumeric ∧
        ∃ ctx before row after, StoppedAt db t id (.tender e) ctx before row after) := by
  cases hloaded : (loadContext t id false).result with
  | error e' =>
    have hsame : e' = e := by simpa [recalculate, hloaded] using failed
    subst hsame
    have hnumeric := (loadContext_ends_notNumeric t id).error hloaded
    refine .inl ⟨hnumeric, rfl, ?_, ?_⟩
    · simp only [recalculationWrites, hloaded]
    · simp only [recalculate, hloaded]
  | ok ctx =>
    have hrun : (priceItems ctx {} t.items).outcome.result = .error e := by
      cases hpriced : (priceItems ctx {} t.items).outcome.result with
      | error e' => simpa [recalculate, hloaded, hpriced] using failed
      | ok tally => simp [recalculate, hloaded, hpriced] at failed
    obtain ⟨before, row, after, failure, hrows, hpriceable, own, hfails, rfl⟩ :=
      priceItems_eq_error_iff.mp hrun
    have hnumeric := TenderError.isNumeric_of_failure ((rowCost_ends hloaded row).error hfails)
    exact .inr ⟨hnumeric, ctx, before, row, after,
      stoppedAt_of_rowCost hloaded hrows hpriceable own hfails failed⟩

end Failure

/-- Material that doubles, material of a type without a sequence, and work that is divided by zero,
with more material behind it. -/
def stoppingTables : Tables Float where
  tenders := [⟨"t-1", some "m-1"⟩]
  tactics := [⟨"m-1", some "T", .object [
    ("мат", .array [.object [
      ("baseIndex", .int (-1)), ("action1", .string "multiply"),
      ("operand1Type", .string "number"), ("operand1Key", .int 2)]]),
    ("раб", .array [.object [
      ("baseIndex", .int (-1)), ("action1", .string "divide"),
      ("operand1Type", .string "number"), ("operand1Key", .int 0)]])], .null⟩]
  items :=
    [{ id := "i-1", itemType := "мат", totalAmount := some 100.0, tender := some "t-1"
       position := some "P1" },
      { id := "i-2", itemType := "суб-мат", totalAmount := some 7.0, tender := some "t-1"
        position := some "P1" },
      { id := "i-3", itemType := "раб", totalAmount := some 7.0, tender := some "t-1"
        position := some "P1" },
      { id := "i-4", itemType := "мат", totalAmount := some 100.0, tender := some "t-1"
        position := some "P1" }]
  positions := [{ id := "P1", tender := some "t-1" }]

/-- Material whose price is ten million times its amount. -/
def overflowingTables : Tables Float where
  tenders := [⟨"t-1", some "m-1"⟩]
  tactics := [⟨"m-1", some "T", .object [
    ("мат", .array [.object [
      ("baseIndex", .int (-1)), ("action1", .string "multiply"),
      ("operand1Type", .string "number"), ("operand1Key", .int 10000000)]])], .null⟩]
  items :=
    [{ id := "i-1", itemType := "мат", totalAmount := some 100.0, tender := some "t-1"
       position := some "P1" }]
  positions := [{ id := "P1", tender := some "t-1" }]

/-- A database that tells doubles apart by their bits. -/
def doubleBackend : Backend Float := numericColumns Float.toBits 7

end Store
end TenderPricing
