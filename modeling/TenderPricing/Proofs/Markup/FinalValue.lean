import TenderPricing.Proofs.Markup.KeptSteps
import TenderPricing.Proofs.Markup.Loading
/-!
The price of an item whose growth is excluded.

The reference run prices the item by the value that its last step leads to, once steps that copy
are passed over.  The shortened sequence prices it by the last step that was kept.  Where the last
step is dropped and was based on something else than the last kept step, the two prices differ as
far as the two values do.
-/
namespace TenderPricing
namespace Markup

variable {α : Type}

/-! ## Passing over steps that copy -/

/-- Where a reference leads when marked steps are passed over: a marked step leads where its own
base reference leads. -/
inductive LeadsTo (copies : Step α → Bool) (steps : List (Step α)) : Int → Int → Prop
  | base : LeadsTo copies steps baseReference baseReference
  | kept {position : Nat} {step : Step α} (at_ : steps[position]? = some step)
    (unmarked : copies step = false) : LeadsTo copies steps position position
  | copied {position : Nat} {step : Step α} {source : Int} (at_ : steps[position]? = some step)
    (marked : copies step = true) (leads : LeadsTo copies steps step.baseIndex source) :
    LeadsTo copies steps position source

/-- In a valid sequence every reference leads somewhere. -/
theorem exists_leadsTo {steps : List (Step α)} (valid : Valid steps) (copies : Step α → Bool) :
    ∀ (bound : Nat) (index : Int), index < bound → mayRefer steps.length index = true →
      ∃ source, LeadsTo copies steps index source := by
  intro bound
  induction bound with
  | zero =>
    intro index hlt hrefer
    rw [mayRefer_iff] at hrefer
    have hbase : index = baseReference := by
      rw [baseReference]
      omega
    subst hbase
    exact ⟨baseReference, .base⟩
  | succ bound ih =>
    intro index hlt hrefer
    by_cases hbefore : index < bound
    · exact ih index hbefore hrefer
    · have hbound : index = bound := by omega
      subst hbound
      rw [mayRefer_iff] at hrefer
      have hlt : bound < steps.length := by omega
      obtain ⟨step, hget⟩ : ∃ step, steps[bound]? = some step :=
        ⟨steps[bound], List.getElem?_eq_getElem hlt⟩
      -- A marked step sends its reference on to one below it.
      by_cases hcopies : copies step = true
      · have hfit := (valid.fitsAt hget).base
        rw [mayRefer_iff] at hfit
        obtain ⟨source, hsource⟩ := ih step.baseIndex (by omega) (by rw [mayRefer_iff]; omega)
        exact ⟨source, .copied hget hcopies hsource⟩
      · exact ⟨bound, .kept hget (by simpa using hcopies)⟩

/-- The value at a reference of the reference run is the value where the reference leads. -/
theorem reach?_of_leadsTo [Arithmetic α] {copies : Step α → Bool} {base : α} {rates : Rates α}
    {sequence : String} {steps : List (Step α)} {details : List (StepDetail α)}
    (run : runCopying copies base rates sequence [] steps = .ok details) {index source : Int}
    (leads : LeadsTo copies steps index source) :
    reach? base (details.map (·.result)) index = reach? base (details.map (·.result)) source := by
  induction leads with
  | base => rfl
  | kept => rfl
  | @copied position step source hget hmarked _ ih =>
    obtain ⟨_, _, hspec⟩ := runCopying_spec run
    obtain ⟨detail, hdetail, hcopy⟩ := hspec position step hget
    rw [List.length_nil, Nat.zero_add] at hdetail hcopy
    rw [Step.runOrCopy, if_pos hmarked, Step.copy, bind_eq_ok_iff] at hcopy
    obtain ⟨start, hstart, hresult⟩ := hcopy
    rw [reach_eq_ok_iff, List.map_take] at hstart
    have hvalue : detail.result = start := by
      rw [pure_eq_ok_iff] at hresult
      rw [← hresult]
    rw [← ih, reach?_of_take hstart, reach?_natCast, List.getElem?_map, hdetail, Option.map_some,
      hvalue]

/-! ## The last step that is kept -/

/-- The position of the last unmarked step, or the base reference where every step is marked. -/
def lastKept (copies : Step α → Bool) (steps : List (Step α)) : Int :=
  (steps.rdropWhile copies).length - 1

/-- The kept part of the reference run ends with the value at the last kept step. -/
theorem reach?_lastKept (base : α) {copies : Step α → Bool} {steps : List (Step α)} :
    ∀ {details : List (StepDetail α)}, steps.length = details.length →
      reach? base (details.map (·.result)) (lastKept copies steps) =
        some (finalValue base (keptDetails copies steps details)) := by
  induction steps using List.reverseRecOn with
  | nil =>
    intro details hlength
    rw [List.length_nil] at hlength
    rw [List.length_eq_zero_iff.mp hlength.symm]
    rfl
  | append_singleton steps step ih =>
    intro details hlength
    obtain ⟨front, last, rfl, hfront⟩ := exists_concat_of_length hlength
    rw [keptDetails_concat copies hfront, List.map_append, List.map_singleton, reach?_concat,
      List.length_map]
    -- A marked step at the end leaves the last kept step and the kept details as they were.
    by_cases hcopies : copies step = true
    · have hshort : (steps.rdropWhile copies).length ≤ steps.length :=
        (List.rdropWhile_prefix copies steps).length_le
      rw [lastKept, List.rdropWhile_concat_pos _ _ _ hcopies, if_pos hcopies, if_neg (by omega)]
      exact ih hfront
    · rw [lastKept, List.rdropWhile_concat_neg _ _ _ hcopies, if_neg hcopies, if_pos (by
        rw [List.length_append, List.length_singleton, hfront]
        omega)]
      simp [finalValue, StepDetail.renumber]

/-! ## The two prices -/

section Price

variable [Arithmetic α] {itemType : String} {base : α} {rates : Rates α} {sequence : String}

/-- The shortened sequence is priced by the last step that is kept. -/
theorem reach?_lastKept_withoutGrowth {steps : List (Step α)} (valid : Valid steps)
    {filtered : Evaluation α} {details : List (StepDetail α)}
    (runs : evaluate (withoutGrowth steps itemType) base rates sequence = .ok filtered)
    (reference : runCopying (usesGrowth itemType) base rates sequence [] steps = .ok details) :
    reach? base (details.map (·.result)) (lastKept (usesGrowth itemType) steps) =
      some filtered.finalValue := by
  have hlength := (length_of_runCopying reference).symm
  rw [evaluate_withoutGrowth valid, evaluateCopying, reference, ok_bind] at runs
  simp only [pure, Except.pure, Except.map, Except.mapError, Except.ok.injEq] at runs
  rw [reach?_lastKept base hlength, ← runs, Evaluation.keep]

/-- The price without growth is the price of the reference run, in which growth steps copy their
start, exactly when the last kept step has the value of the step that the last step leads to.
This holds in particular when these two are the same step. -/
theorem withoutGrowth_final_iff {raw : Json} {name : String} {steps : List (Step α)}
    (loaded : sequenceOfRaw raw name = .ok steps) {filtered copied : Evaluation α}
    (runs : evaluate (withoutGrowth steps itemType) base rates sequence = .ok filtered)
    (reference : evaluateCopying (usesGrowth itemType) base rates sequence steps = .ok copied) :
    ∃ source, LeadsTo (usesGrowth itemType) steps (steps.length - 1) source ∧
      (filtered.finalValue = copied.finalValue ↔
        reach? base copied.results (lastKept (usesGrowth itemType) steps) =
          reach? base copied.results source) ∧
      (lastKept (usesGrowth itemType) steps = source →
        filtered.finalValue = copied.finalValue) := by
  have valid : Valid steps := valid_of_sequenceOfRaw loaded
  rw [evaluateCopying, bind_eq_ok_iff] at reference
  obtain ⟨details, hrun, hcopied⟩ := reference
  rw [pure_eq_ok_iff] at hcopied
  subst hcopied
  have hlength : details.length = steps.length := by
    have h := (runCopying_spec hrun).1
    rwa [List.length_nil, Nat.zero_add] at h
  obtain ⟨source, hsource⟩ := exists_leadsTo valid (usesGrowth itemType) steps.length
    (steps.length - 1) (by omega) (by rw [mayRefer_iff]; omega)
  have hkept := reach?_lastKept_withoutGrowth valid runs hrun
  have hlast : reach? base (details.map (·.result)) source = some (finalValue base details) := by
    rw [← reach?_of_leadsTo hrun hsource, ← hlength, reach?_finalValue]
  have hiff : filtered.finalValue = finalValue base details ↔
      reach? base (details.map (·.result)) (lastKept (usesGrowth itemType) steps) =
        reach? base (details.map (·.result)) source := by
    rw [hkept, hlast, Option.some.injEq]
  exact ⟨source, hsource, hiff, fun h => hiff.mpr (by rw [h])⟩

end Price

/-- Profit on the base value, and after it growth on the base value as well. -/
def growthLast : List (Step Float) :=
  [⟨-1, [⟨.multiply, .rate "profit_subcontract" .addOne⟩], .null⟩,
    ⟨-1, [⟨.multiply, .rate "subcontract_works_cost_growth" .addOne⟩], .null⟩]

def growthLastRates : Rates Float :=
  .ofTable [("profit_subcontract", 100.0), ("subcontract_works_cost_growth", 10.0)]

theorem withoutGrowth_final_iff_growthLast :
    sequenceOfRaw (.array (growthLast.map Step.toRaw)) "суб-раб" = .ok growthLast ∧
      ∃ filtered copied,
        evaluate (withoutGrowth growthLast "суб-раб") 100.0 growthLastRates "суб-раб" =
          .ok filtered ∧
        evaluateCopying (usesGrowth "суб-раб") 100.0 growthLastRates "суб-раб" growthLast =
          .ok copied ∧
        ∃ source, LeadsTo (usesGrowth "суб-раб") growthLast (growthLast.length - 1) source ∧
          (filtered.finalValue = copied.finalValue ↔
            reach? 100.0 copied.results (lastKept (usesGrowth "суб-раб") growthLast) =
              reach? 100.0 copied.results source) ∧
          (lastKept (usesGrowth "суб-раб") growthLast = source →
            filtered.finalValue = copied.finalValue) := by
  have loaded : sequenceOfRaw (.array (growthLast.map Step.toRaw)) "суб-раб" = .ok growthLast := rfl
  refine ⟨loaded, _, _, rfl, rfl, ?_⟩
  exact withoutGrowth_final_iff loaded
    (show evaluate (withoutGrowth growthLast "суб-раб") 100.0 growthLastRates "суб-раб" = .ok _
      from rfl)
    (show evaluateCopying (usesGrowth "суб-раб") 100.0 growthLastRates "суб-раб" growthLast = .ok _
      from rfl)

/-- Dropping a last step that grows the base value prices the item by the profit step instead of
by the base value. -/
theorem growthLast_final_ne :
    ∃ filtered copied,
      evaluate (withoutGrowth growthLast "суб-раб") 100.0 growthLastRates "суб-раб" =
        .ok filtered ∧
      evaluateCopying (usesGrowth "суб-раб") 100.0 growthLastRates "суб-раб" growthLast =
        .ok copied ∧
      filtered.finalValue = 200.0 ∧ copied.finalValue = 100.0 ∧
      filtered.finalValue ≠ copied.finalValue :=
  ⟨_, _, rfl, rfl, by decide +kernel, by decide +kernel, by decide +kernel⟩

end Markup
end TenderPricing
