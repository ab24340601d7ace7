import TenderPricing.Pricing.Aggregation
import TenderPricing.Pricing.Consistency
import TenderPricing.Proofs.Markup.NamedRates
/-!
The percentages that the prices of a tender depend on.

A tactic names the rates of its sequences.  Items are priced, added up and checked by runs of these
sequences, with or without growth, so two sets of percentages that agree on the named rates give the
same prices, journal and errors included.
-/
namespace TenderPricing
namespace Pricing

open Markup

variable {α : Type}

/-- The rates that the sequences of a tactic name. -/
def Tactic.namedRates (tactic : Tactic α) : List String :=
  tactic.sequences.flatMap fun entry => Markup.namedRates entry.2

theorem Tactic.namedRates_sequenceFor (tactic : Tactic α) (itemType : String) :
    ∀ key ∈ Markup.namedRates (tactic.sequenceFor itemType), key ∈ tactic.namedRates := by
  let P (steps : List (Step α)) : Prop :=
    ∀ key ∈ Markup.namedRates steps, key ∈ tactic.namedRates
  have hsequences : ∀ entry ∈ tactic.sequences, P entry.2 := fun entry hentry key hkey =>
    List.mem_flatMap.mpr ⟨entry, hentry, hkey⟩
  exact Keyed.lookup_getD_of_forall hsequences (List.forall_mem_nil _)

variable [Arithmetic α]

/-- Either percentages give the same prices: the same coefficients, item costs, totals and
disagreements, with the same notices and errors. -/
structure SamePrices (tactic : Tactic α) (rates rates' : Rates α) : Prop where
  coefficients : coefficients rates tactic.sequences = coefficients rates' tactic.sequences
  itemCost : ∀ (item : Item α) (distribution : Option Distribution) (excluded : Bool),
    itemCost item tactic rates distribution excluded =
      itemCost item tactic rates' distribution excluded
  aggregate : ∀ (items : List (Item α)) (exclusions : Exclusions) (withDetails : Bool),
    aggregateLogged items tactic rates exclusions withDetails =
      aggregateLogged items tactic rates' exclusions withDetails
  consistency : ∀ items : List (Item α),
    checkConsistency items tactic rates = checkConsistency items tactic rates'

section Agreement

variable {tactic : Tactic α} {rates rates' : Rates α}

theorem sameRuns_sequenceFor (same : rates.AgreeOn tactic.namedRates rates') (itemType : String) :
    SameRuns (tactic.sequenceFor itemType) rates rates' :=
  sameRuns_of_agreeOn (same.mono (tactic.namedRates_sequenceFor itemType))

theorem sameRuns_pricingSteps (same : rates.AgreeOn tactic.namedRates rates') (itemType : String)
    (excluded : Bool) : SameRuns (pricingSteps tactic itemType excluded) rates rates' := by
  cases excluded with
  | false => exact sameRuns_sequenceFor same itemType
  | true =>
    exact sameRuns_of_agreeOn (same.mono fun key hkey =>
      tactic.namedRates_sequenceFor itemType key (namedRates_withoutGrowth _ itemType key hkey))

theorem coefficients_congr {sequences : Sequences α}
    (same : ∀ entry ∈ sequences, SameRuns entry.2 rates rates') :
    coefficients rates sequences = coefficients rates' sequences := by
  induction sequences with
  | nil => rfl
  | cons entry rest ih =>
    obtain ⟨itemType, steps⟩ := entry
    rw [List.forall_mem_cons] at same
    simp only [coefficients, ih same.2, same.1.coefficient]

theorem itemCost_congr (same : rates.AgreeOn tactic.namedRates rates') (item : Item α)
    (distribution : Option Distribution) (excluded : Bool) :
    itemCost item tactic rates distribution excluded =
      itemCost item tactic rates' distribution excluded := by
  simp only [itemCost, (sameRuns_pricingSteps same item.itemType excluded).evaluate]

theorem aggregate_congr (same : rates.AgreeOn tactic.namedRates rates') (items : List (Item α))
    (exclusions : Exclusions) (withDetails : Bool) :
    aggregate items tactic rates exclusions withDetails =
      aggregate items tactic rates' exclusions withDetails := by
  have hadd : Aggregation.addItem tactic rates exclusions withDetails =
      Aggregation.addItem tactic rates' exclusions withDetails := by
    funext a item
    have hrun := (sameRuns_pricingSteps same item.itemType (exclusions.covers item)).evaluate
    simp only [Aggregation.addItem, hrun]
  rw [aggregate, aggregate, hadd]

theorem mismatches_congr (same : rates.AgreeOn tactic.namedRates rates')
    (known : Keyed String α) (items : List (Item α)) :
    mismatches tactic rates known items = mismatches tactic rates' known items := by
  have hmismatch : ∀ item, mismatch? tactic rates known item =
      mismatch? tactic rates' known item := fun item => by
    simp only [mismatch?, (sameRuns_sequenceFor same item.itemType).evaluate]
  induction items with
  | nil => rfl
  | cons item rest ih => rw [mismatches, mismatches, hmismatch, ih]

theorem samePrices_of_agreeOn (same : rates.AgreeOn tactic.namedRates rates') :
    SamePrices tactic rates rates' := by
  have hcoefficients : Pricing.coefficients rates tactic.sequences =
      Pricing.coefficients rates' tactic.sequences :=
    coefficients_congr fun entry hentry => sameRuns_of_agreeOn (same.mono fun _ hkey =>
      List.mem_flatMap.mpr ⟨entry, hentry, hkey⟩)
  refine ⟨hcoefficients, itemCost_congr same, fun items exclusions withDetails => ?_,
    fun items => ?_⟩
  · rw [aggregateLogged, aggregateLogged, aggregate_congr same]
  · simp only [checkConsistency, hcoefficients, mismatches_congr same]

end Agreement

/-- Prices depend on the percentages of the named rates only, whatever these are read from.  Stored
percentages count by their number alone: one that is missing, null or zero is the same.  So nothing
changes when entries that hold nothing are dropped, when percentages lose their nulls as they come
into force, or when other parameters have percentages too. -/
theorem prices_depend_on_named_rates :
    (∀ steps : List (Step α),
      (∀ rates rates' : Rates α, rates.AgreeOn (Markup.namedRates steps) rates' →
        SameRuns steps rates rates') ∧
      ∀ values values' : List (String × Option α),
        (∀ key ∈ Markup.namedRates steps, percentOf values key = percentOf values' key) →
          SameRuns steps (.ofList values) (.ofList values')) ∧
    ∀ tactic : Tactic α,
      (∀ rates rates' : Rates α, rates.AgreeOn tactic.namedRates rates' →
        SamePrices tactic rates rates') ∧
      ∀ values : List (String × Option α),
        (∀ values' : List (String × Option α),
          (∀ key ∈ tactic.namedRates, percentOf values key = percentOf values' key) →
            SamePrices tactic (.ofList values) (.ofList values')) ∧
        (∀ keep : String × Option α → Bool, (values.map Prod.fst).Nodup →
          (∀ entry ∈ values, keep entry = false → IsNothing entry.2) →
            SamePrices tactic (.ofList values) (.ofList (values.filter keep))) ∧
        (∀ table : Keyed String α, (values.map Prod.fst).Nodup →
          (Rates.inForce (some values) : Logged α EvaluationError (Keyed String α)).result =
              .ok table →
            SamePrices tactic (.ofList values) (.ofTable table)) ∧
        (∀ extra : List (String × Option α),
          (∀ key ∈ tactic.namedRates, key ∉ extra.map Prod.fst) →
            SamePrices tactic (.ofList values) (.ofList (values ++ extra))) := by
  refine ⟨fun steps => ⟨fun _ _ => sameRuns_of_agreeOn, fun values values' same =>
      sameRuns_of_agreeOn (Rates.agreeOn_ofList same)⟩,
    fun tactic => ⟨fun _ _ => samePrices_of_agreeOn, fun values => ⟨fun values' same => ?_,
      fun keep distinct dropped => ?_, fun table distinct inForce => ?_,
      fun extra unrelated => ?_⟩⟩⟩
  · exact samePrices_of_agreeOn (Rates.agreeOn_ofList same)
  · exact samePrices_of_agreeOn (Rates.agreeOn_ofList fun key _ =>
      (percentOf_filter distinct dropped key).symm)
  · rw [Rates.ofTable_of_inForce distinct inForce]
    exact samePrices_of_agreeOn fun _ _ => rfl
  · exact samePrices_of_agreeOn (Rates.agreeOn_ofList fun key hkey =>
      (percentOf_append (unrelated key hkey)).symm)

/-- Subcontracted work with its profit and its growth. -/
def profitAndGrowth : Tactic Rat where
  sequences := [("суб-раб",
    [⟨-1, [⟨.multiply, .rate "profit_subcontract" .addOne⟩], .null⟩,
      ⟨0, [⟨.multiply, .rate "subcontract_works_cost_growth" .addOne⟩], .null⟩])]

def sixteenPercent : List (String × Option Rat) :=
  [("profit_subcontract", some 16), ("subcontract_works_cost_growth", some 0), ("mbp_gsm", none)]

/-- The profit alone gives the same prices, as do the percentages in force and those with work
growth beside them; another profit does not. -/
theorem prices_depend_on_named_rates_subcontract :
    SamePrices profitAndGrowth (.ofList sixteenPercent)
        (.ofList [("profit_subcontract", some 16)]) ∧
      SamePrices profitAndGrowth (.ofList sixteenPercent)
        (.ofTable [("profit_subcontract", 16), ("subcontract_works_cost_growth", 0)]) ∧
      SamePrices profitAndGrowth (.ofList sixteenPercent)
        (.ofList (sixteenPercent ++ [("works_cost_growth", some 10)])) ∧
      ¬ SamePrices profitAndGrowth (.ofList sixteenPercent)
        (.ofList [("profit_subcontract", some 17)]) := by
  have distinct : (sixteenPercent.map Prod.fst).Nodup := by decide
  have prices := (prices_depend_on_named_rates.2 profitAndGrowth).2 sixteenPercent
  refine ⟨?_, prices.2.2.1 _ distinct rfl, prices.2.2.2 _ (by decide), fun same => ?_⟩
  · refine prices.2.1 (fun entry => entry.1 = "profit_subcontract") distinct ?_
    intro entry hentry hdropped percent hpercent
    simp only [sixteenPercent, List.mem_cons, List.not_mem_nil, or_false] at hentry
    rcases hentry with rfl | rfl | rfl
    · cases hdropped
    · cases hpercent
      decide +kernel
    · cases hpercent
  · have hcoefficients := congrArg (fun known => known.result.toOption) same.coefficients
    revert hcoefficients
    decide +kernel

end Pricing
end TenderPricing
