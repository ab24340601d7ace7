import TenderPricing.Proofs.Keyed
import TenderPricing.Proofs.Markup.Chain
import TenderPricing.Proofs.Pricing.Credits
/-!
The totals of the parameters against the markup of a tender.

Where every sequence is a chain and each of its steps names one parameter, the parameters share the
markup among them: what an item adds to their totals is what its steps add, and along a chain that
is its price less its amount.
-/
namespace TenderPricing
namespace Pricing

open Markup

/-! ## What credits add up to -/

/-- The sum of the totals of all parameters. -/
def parameterSum (table : Keyed String (ParameterTotal Rat)) : Rat :=
  (table.map fun entry => entry.2.markupAmount).sum

theorem parameterSum_bookCredits (itemType : String) {credits : List (String × Rat)} :
    ∀ (seen : List String) (table : Keyed String (ParameterTotal Rat)),
      parameterSum (bookCredits itemType seen credits table) =
        parameterSum table + (credits.map (·.2)).sum := by
  induction credits with
  | nil => intro seen table; simp [bookCredits]
  | cons credit rest ih =>
    intro seen table
    obtain ⟨key, amount⟩ := credit
    have hupdate : parameterSum
        (table.update key .zero (·.credit itemType amount (!seen.contains key))) =
          parameterSum table + amount :=
      Keyed.sum_map_update (f := ParameterTotal.markupAmount) Arithmetic.exact_zero (fun _ => rfl)
        key table
    rw [bookCredits, ih, hupdate, List.map_cons, List.sum_cons, add_assoc]

/-- Steps that name one parameter each are credited once each. -/
theorem sum_creditsOf {details : List (StepDetail Rat)}
    (single : ∀ detail ∈ details, detail.parameterKeys.length = 1) :
    ((creditsOf details).map (·.2)).sum = (details.map (·.markupAmount)).sum := by
  induction details with
  | nil => rfl
  | cons detail rest ih =>
    rw [List.forall_mem_cons] at single
    obtain ⟨key, hkey⟩ := List.length_eq_one_iff.mp single.1
    have hrest := ih single.2
    unfold creditsOf at hrest ⊢
    rw [List.flatMap_cons, hkey, List.map_append, List.sum_append, hrest]
    simp

/-! ## The markup of a tender -/

section Tender

variable {tactic : Tactic Rat} {rates : Rates Rat} {exclusions : Exclusions} {withDetails : Bool}

theorem chained_stepsOf (chained : ∀ entry ∈ tactic.sequences, Chained entry.2)
    (item : Item Rat) : Chained (stepsOf tactic exclusions item) := by
  have hsequence : Chained (tactic.sequenceFor item.itemType) :=
    Keyed.lookup_getD_of_forall (P := Chained) chained trivial
  unfold stepsOf pricingSteps
  split
  · split
    · exact chained_withoutGrowth hsequence item.itemType
    · exact hsequence
  · trivial

theorem single_stepsOf
    (single : ∀ entry ∈ tactic.sequences, ∀ step ∈ entry.2, step.parameterKeys.length = 1)
    (item : Item Rat) :
    ∀ step ∈ stepsOf tactic exclusions item, step.parameterKeys.length = 1 := by
  have hsequence : ∀ step ∈ tactic.sequenceFor item.itemType, step.parameterKeys.length = 1 :=
    Keyed.lookup_getD_of_forall
      (P := fun steps : List (Step Rat) => ∀ step ∈ steps, step.parameterKeys.length = 1)
      single (by simp)
  unfold stepsOf pricingSteps
  split
  · split
    · intro step hstep
      obtain ⟨original, hmem, hkeys⟩ := exists_parameterKeys_eq_of_mem_withoutGrowth hstep
      rw [hkeys]
      exact hsequence original hmem
    · exact hsequence
  · simp

/-- What an item adds to the totals of the parameters it adds to the markup. -/
theorem addItem_parameterSum (chained : ∀ entry ∈ tactic.sequences, Chained entry.2)
    (single : ∀ entry ∈ tactic.sequences, ∀ step ∈ entry.2, step.parameterKeys.length = 1)
    {a a' : Aggregation Rat} {item : Item Rat}
    (h : Aggregation.addItem tactic rates exclusions withDetails a item = .ok a')
    (before : parameterSum a.byParameter = a.totalMarkup) :
    parameterSum a'.byParameter = a'.totalMarkup := by
  rw [addItem_eq] at h
  by_cases positive : 0 < item.baseAmount
  · rw [if_pos positive, bind_eq_ok_iff] at h
    obtain ⟨e, he, h⟩ := h
    rw [pure_eq_ok_iff] at h
    have hkeys : ∀ detail ∈ e.details, detail.parameterKeys.length = 1 := by
      have hrun : runItem tactic rates exclusions item =
          .ok (e.details.map fun detail => (item.itemType, detail)) := by
        rw [runItem, he]
        rfl
      have hsame := runItem_parameterKeys hrun
      rw [List.map_map] at hsame
      intro detail hdetail
      have hmem : detail.parameterKeys ∈
          (stepsOf tactic exclusions item).map (·.parameterKeys) := by
        rw [← hsame]
        exact List.mem_map.mpr ⟨detail, hdetail, rfl⟩
      obtain ⟨step, hstep, hnames⟩ := List.mem_map.mp hmem
      rw [← hnames]
      exact single_stepsOf single item step hstep
    have hadded := evaluate_sum_markupAmount (chained_stepsOf chained item) he
    subst h
    show parameterSum (bookCredits _ _ _ _) =
      a.totalCommercial + e.finalValue - (a.totalBase + item.baseAmount)
    rw [parameterSum_bookCredits, before, sum_creditsOf hkeys, hadded, Aggregation.totalMarkup]
    ring
  · rw [if_neg positive, Except.ok.injEq] at h
    rwa [← h]

/-- Where every sequence is a chain of steps that name one parameter each, the totals of the
parameters add up to the markup of the tender, whatever is excluded. -/
theorem sum_byParameter_eq_markup (chained : ∀ entry ∈ tactic.sequences, Chained entry.2)
    (single : ∀ entry ∈ tactic.sequences, ∀ step ∈ entry.2, step.parameterKeys.length = 1)
    {items : List (Item Rat)} {a : Aggregation Rat}
    (aggregated : aggregate items tactic rates exclusions withDetails = .ok a) :
    (a.byParameter.map fun entry => entry.2.markupAmount).sum =
      a.totalCommercial - a.totalBase := by
  refine foldlM_ok_induction (P := fun a => parameterSum a.byParameter = a.totalMarkup)
    (fun item _ before after hbefore hadd => addItem_parameterSum chained single hadd hbefore)
    ?_ aggregated
  show (0 : Rat) = 0.0 - 0.0
  rw [Arithmetic.exact_zero, sub_zero]

end Tender

/-- Growth, profit on top of it with a fixed fee, and growth once more. -/
def growthAroundProfit : Tactic Rat where
  sequences := [("суб-раб",
    [⟨-1, [⟨.multiply, .rate "subcontract_works_cost_growth" .addOne⟩], .null⟩,
      ⟨0, [⟨.multiply, .rate "profit_subcontract" .addOne⟩, ⟨.add, .number 7⟩], .null⟩,
      ⟨1, [⟨.multiply, .rate "subcontract_works_cost_growth" .addOne⟩,
        ⟨.subtract, .step 0⟩], .null⟩])]

def growthAndProfit : Rates Rat :=
  .ofList [("subcontract_works_cost_growth", some 10), ("profit_subcontract", some 16)]

/-- One item with growth, one whose growth is excluded, and one of a type without a sequence. -/
def roofItems : List (Item Rat) :=
  [{ id := "1", itemType := "суб-раб", totalAmount := some 100 },
    { id := "2", itemType := "суб-раб", totalAmount := some 40, costCategory := some "roof" },
    { id := "3", itemType := "мат", totalAmount := some 30 }]

theorem sum_byParameter_eq_markup_growthAroundProfit :
    (∀ entry ∈ growthAroundProfit.sequences, Chained entry.2) ∧
      (∀ entry ∈ growthAroundProfit.sequences, ∀ step ∈ entry.2,
        step.parameterKeys.length = 1) ∧
      ∃ a, aggregate roofItems growthAroundProfit growthAndProfit { works := ["roof"] } false =
          .ok a ∧
        (a.byParameter.map fun entry => entry.2.markupAmount).sum =
          a.totalCommercial - a.totalBase := by
  have chained : ∀ entry ∈ growthAroundProfit.sequences, Chained entry.2 := by
    simp [growthAroundProfit, Chained, ChainedFrom]
  have single : ∀ entry ∈ growthAroundProfit.sequences, ∀ step ∈ entry.2,
      step.parameterKeys.length = 1 := by
    simp [growthAroundProfit, Step.parameterKeys, Operand.key?]
  have hvalue : (aggregate roofItems growthAroundProfit growthAndProfit
      { works := ["roof"] } false).toOption.isSome = true := by decide +kernel
  obtain ⟨a, ha⟩ := Option.isSome_iff_exists.mp hvalue
  have aggregated := eq_ok_of_toOption ha
  exact ⟨chained, single, a, aggregated, sum_byParameter_eq_markup chained single aggregated⟩

end Pricing
end TenderPricing
