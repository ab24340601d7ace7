import Mathlib.Algebra.BigOperators.Group.List.Basic
import Mathlib.Algebra.Field.Rat
import TenderPricing.Pricing.Aggregation
import TenderPricing.Proofs.Markup.References
/-!
What a parameter is credited with over a tender.

A tender runs a list of steps, item after item.  The totals of a parameter are read off that list
in two ways: `creditedOnce` takes the amount of each step that names the parameter, and
`creditedPerUse` takes it as often as the step names it.  The totals are the ones per use, so they
count each step once exactly where no step names the parameter twice.
-/
namespace TenderPricing

/-! ## The parameters of a run -/

namespace Markup

variable {α : Type} [Arithmetic α] {base : α} {rates : Rates α} {sequence : String}

theorem Step.run_parameterKeys {results : List α} {step : Step α} {detail : StepDetail α}
    (h : step.run base rates sequence results = .ok detail) :
    detail.parameterKeys = step.parameterKeys := by
  obtain ⟨start, value, -, -, -, rfl⟩ := Step.run_ok h
  rfl

theorem runFrom_parameterKeys {steps : List (Step α)} :
    ∀ {done details : List (StepDetail α)}, runFrom base rates sequence done steps = .ok details →
      details.map (·.parameterKeys) = done.map (·.parameterKeys) ++ steps.map (·.parameterKeys) := by
  induction steps with
  | nil =>
    intro done details h
    rw [runFrom, Except.ok.injEq] at h
    subst h
    simp
  | cons step rest ih =>
    intro done details h
    rw [runFrom, bind_eq_ok_iff] at h
    obtain ⟨detail, hdetail, h⟩ := h
    rw [ih h, List.map_append, List.map_singleton, Step.run_parameterKeys hdetail, List.map_cons]
    simp

end Markup

namespace Pricing

open Markup

/-! ## Amounts that add up to totals -/

/-- Totals that are made up of the given amounts, each booked under an item type. -/
structure ParameterTotal.Tallies (p : ParameterTotal Rat) (entries : List (String × Rat)) : Prop where
  markupAmount : p.markupAmount = (entries.map (·.2)).sum
  stepsCount : p.stepsCount = entries.length
  byItemType : ∀ type, p.byItemType.lookup type =
    if type ∈ entries.map (·.1) then some ((entries.filter (·.1 == type)).map (·.2)).sum else none

theorem ParameterTotal.zero_tallies : (ParameterTotal.zero : ParameterTotal Rat).Tallies [] where
  markupAmount := Arithmetic.exact_zero
  stepsCount := rfl
  byItemType _ := rfl

theorem ParameterTotal.credit_tallies {p : ParameterTotal Rat} {entries : List (String × Rat)}
    (h : p.Tallies entries) (itemType : String) (amount : Rat) (newItem : Bool) :
    (p.credit itemType amount newItem).Tallies (entries ++ [(itemType, amount)]) where
  markupAmount := by
    rw [List.map_append, List.sum_append, ← h.markupAmount, List.map_singleton, List.sum_singleton]
    rfl
  stepsCount := by
    rw [List.length_append, ← h.stepsCount]
    rfl
  byItemType type := by
    rw [ParameterTotal.credit, List.filter_append]
    by_cases htype : type = itemType
    · subst htype
      rw [Keyed.lookup_update_self, h.byItemType]
      have hsum : (if type ∈ entries.map (·.1) then
          some ((entries.filter (·.1 == type)).map (·.2)).sum else none).getD 0.0 =
            ((entries.filter (·.1 == type)).map (·.2)).sum := by
        by_cases hmem : type ∈ entries.map (·.1)
        · rw [if_pos hmem]
          rfl
        · have hnone : entries.filter (·.1 == type) = [] := by
            rw [List.filter_eq_nil_iff]
            intro entry hentry heq
            exact hmem (List.mem_map.mpr ⟨entry, hentry, eq_of_beq heq⟩)
          rw [if_neg hmem, hnone]
          exact Arithmetic.exact_zero
      rw [hsum, if_pos (by simp), List.map_append, List.sum_append]
      simp
    · have hne : ¬ itemType = type := fun h => htype h.symm
      have hother : [(itemType, amount)].filter (·.1 == type) = [] := by simp [hne]
      have hmem : type ∈ entries.map (·.1) ↔ type ∈ (entries ++ [(itemType, amount)]).map (·.1) := by
        simp [htype]
      rw [Keyed.lookup_update_of_ne htype, h.byItemType, hother, List.append_nil]
      exact if_congr hmem rfl rfl

/-- What a table holds for a key: amounts that were booked for it, and the number of items that
they came from. -/
structure Booked (key : String) (table : Keyed String (ParameterTotal Rat))
    (entries : List (String × Rat)) (items : Nat) : Prop where
  present : (table.lookup key).isSome = true ↔ entries ≠ []
  itemCount : ((table.lookup key).getD .zero).itemCount = items
  tallies : ((table.lookup key).getD .zero).Tallies entries

namespace Booked

variable {key : String} {table : Keyed String (ParameterTotal Rat)}
variable {entries : List (String × Rat)} {items : Nat}

theorem nil (key : String) : Booked key [] [] 0 where
  present := by simp
  itemCount := rfl
  tallies := ParameterTotal.zero_tallies

theorem credit (h : Booked key table entries items) (itemType : String) (amount : Rat)
    (newItem : Bool) :
    Booked key (table.update key .zero (·.credit itemType amount newItem))
      (entries ++ [(itemType, amount)]) (if newItem then items + 1 else items) where
  present := by
    rw [Keyed.lookup_update_self]
    simp
  itemCount := by
    rw [Keyed.lookup_update_self, Option.getD_some, ParameterTotal.credit, h.itemCount]
  tallies := by
    rw [Keyed.lookup_update_self, Option.getD_some]
    exact ParameterTotal.credit_tallies h.tallies itemType amount newItem

theorem credit_other (h : Booked key table entries items) {other : String} (hne : key ≠ other)
    (f : ParameterTotal Rat → ParameterTotal Rat) :
    Booked key (table.update other .zero f) entries items := by
  have hlookup := Keyed.lookup_update_of_ne hne .zero f table
  exact ⟨by rw [hlookup]; exact h.present, by rw [hlookup]; exact h.itemCount,
    by rw [hlookup]; exact h.tallies⟩

end Booked

/-- The credits of one item are booked under its type, and it counts as one more item unless it
was seen before. -/
theorem bookCredits_booked {key : String} (itemType : String) {credits : List (String × Rat)} :
    ∀ (seen : List String) {table : Keyed String (ParameterTotal Rat)}
      {entries : List (String × Rat)} {items : Nat}, Booked key table entries items →
        Booked key (bookCredits itemType seen credits table)
          (entries ++ (credits.filter (·.1 == key)).map fun credit => (itemType, credit.2))
          (if key ∉ seen ∧ key ∈ credits.map (·.1) then items + 1 else items) := by
  induction credits with
  | nil =>
    intro seen table entries items h
    simpa [bookCredits] using h
  | cons credit rest ih =>
    intro seen table entries items h
    obtain ⟨name, amount⟩ := credit
    rw [bookCredits]
    by_cases hname : key = name
    · subst hname
      have hrest := ih (key :: seen) (h.credit itemType amount (!seen.contains key))
      simpa using hrest
    · have hrest := ih (name :: seen) (h.credit_other hname
        (·.credit itemType amount (!seen.contains name)))
      have hother : ((name, amount) :: rest).filter (·.1 == key) = rest.filter (·.1 == key) := by
        have hne : ¬ name = key := fun h => hname h.symm
        simp [hne]
      have hmem : (key ∉ name :: seen ∧ key ∈ rest.map (·.1)) ↔
          key ∉ seen ∧ key ∈ ((name, amount) :: rest).map (·.1) := by
        simp [hname]
      rw [hother, ← if_congr hmem rfl rfl]
      exact hrest

/-! ## The steps that a tender runs -/

section Tender

variable (tactic : Tactic Rat) (rates : Rates Rat) (exclusions : Exclusions)

/-- The steps that price an item; an amount that is not positive runs none. -/
def stepsOf (item : Item Rat) : List (Step Rat) :=
  if 0 < item.baseAmount then pricingSteps tactic item.itemType (exclusions.covers item) else []

/-- What the steps of an item do, each under the type of the item. -/
def runItem (item : Item Rat) : Except EvaluationError (List (String × StepDetail Rat)) := do
  let e ← evaluate (stepsOf tactic exclusions item) item.baseAmount rates item.itemType
  return e.details.map fun detail => (item.itemType, detail)

def runItems : List (Item Rat) → Except EvaluationError (List (String × StepDetail Rat))
  | [] => .ok []
  | item :: rest => do
    let first ← runItem tactic rates exclusions item
    let later ← runItems rest
    return first ++ later

/-- The totals once an item has been priced. -/
def Aggregation.addPriced (withDetails : Bool) (a : Aggregation Rat) (item : Item Rat)
    (e : Evaluation Rat) : Aggregation Rat where
  byParameter := bookCredits item.itemType [] (creditsOf e.details) a.byParameter
  directCosts := a.directCosts.credit item.itemType item.baseAmount
  totalBase := a.totalBase + item.baseAmount
  totalCommercial := a.totalCommercial + e.finalValue
  itemDetails :=
    if withDetails && !(tactic.sequenceFor item.itemType).isEmpty then
      a.itemDetails ++ [⟨item.id, item.itemType, item.baseAmount, e.finalValue, e.details⟩]
    else a.itemDetails

end Tender

/-- The amounts of the steps that name a parameter. -/
def creditedOnce (key : String) (steps : List (String × StepDetail Rat)) : List (String × Rat) :=
  (steps.filter fun s => s.2.parameterKeys.contains key).map fun s => (s.1, s.2.markupAmount)

/-- The amounts of the steps that name a parameter, each as often as the step names it. -/
def creditedPerUse (key : String) (steps : List (String × StepDetail Rat)) : List (String × Rat) :=
  steps.flatMap fun s => List.replicate (s.2.parameterKeys.count key) (s.1, s.2.markupAmount)

section Items

variable {tactic : Tactic Rat} {rates : Rates Rat} {exclusions : Exclusions}

theorem runItem_parameterKeys {item : Item Rat} {steps : List (String × StepDetail Rat)}
    (h : runItem tactic rates exclusions item = .ok steps) :
    steps.map (·.2.parameterKeys) = (stepsOf tactic exclusions item).map (·.parameterKeys) := by
  rw [runItem, bind_eq_ok_iff] at h
  obtain ⟨e, he, h⟩ := h
  rw [evaluate, bind_eq_ok_iff] at he
  obtain ⟨details, hrun, he⟩ := he
  have hdetails : e.details = details := by
    rw [pure_eq_ok_iff] at he
    rw [← he]
  rw [pure_eq_ok_iff] at h
  rw [← h, List.map_map, hdetails]
  exact runFrom_parameterKeys hrun

theorem runItems_parameterKeys {items : List (Item Rat)} :
    ∀ {steps : List (String × StepDetail Rat)}, runItems tactic rates exclusions items = .ok steps →
      steps.map (·.2.parameterKeys) =
        items.flatMap fun item => (stepsOf tactic exclusions item).map (·.parameterKeys) := by
  induction items with
  | nil =>
    intro steps h
    rw [runItems, Except.ok.injEq] at h
    rw [← h]
    rfl
  | cons item rest ih =>
    intro steps h
    rw [runItems, bind_eq_ok_iff] at h
    obtain ⟨first, hfirst, h⟩ := h
    rw [bind_eq_ok_iff] at h
    obtain ⟨later, hlater, h⟩ := h
    rw [pure_eq_ok_iff] at h
    rw [← h, List.map_append, List.flatMap_cons, runItem_parameterKeys hfirst, ih hlater]

theorem pricingSteps_of_no_sequence {itemType : String} {excluded : Bool}
    (h : tactic.sequenceFor itemType = []) : pricingSteps tactic itemType excluded = [] := by
  rw [pricingSteps, h]
  cases excluded with
  | false => rfl
  | true =>
    show withoutGrowth [] itemType = []
    unfold withoutGrowth
    cases growthParameter? itemType with
    | none => rfl
    | some key => rfl

/-- Adding an item prices it by its steps; an amount that is not positive leaves the totals as they
are, and a type without a sequence is priced by no steps. -/
theorem addItem_eq (withDetails : Bool) (a : Aggregation Rat) (item : Item Rat) :
    Aggregation.addItem tactic rates exclusions withDetails a item =
      if 0 < item.baseAmount then do
        let e ← evaluate (stepsOf tactic exclusions item) item.baseAmount rates item.itemType
        return a.addPriced tactic withDetails item e
      else .ok a := by
  simp only [Aggregation.addItem, Arithmetic.exact_zero]
  by_cases hbase : item.baseAmount ≤ 0
  · rw [if_pos hbase, if_neg (Rat.not_lt.mpr hbase)]
  · have hsteps : stepsOf tactic exclusions item =
        pricingSteps tactic item.itemType (exclusions.covers item) :=
      if_pos (Rat.not_le.mp hbase)
    rw [if_neg hbase, if_pos (Rat.not_le.mp hbase), hsteps]
    by_cases hempty : (tactic.sequenceFor item.itemType).isEmpty = true
    · rw [if_pos hempty, pricingSteps_of_no_sequence (List.isEmpty_iff.mp hempty)]
      simp [evaluate, runFrom, finalValue, Aggregation.addPriced, creditsOf, bookCredits, hempty,
        ok_bind, pure, Except.pure]
    · rw [if_neg hempty]
      simp [Aggregation.addPriced, hempty]

/-- Adding an item runs its steps and books their credits, whichever of the three ways it takes:
an amount that is not positive and a type without a sequence have no steps to run. -/
theorem addItem_runs {withDetails : Bool} {a a' : Aggregation Rat} {item : Item Rat}
    (h : Aggregation.addItem tactic rates exclusions withDetails a item = .ok a') :
    ∃ e, evaluate (stepsOf tactic exclusions item) item.baseAmount rates item.itemType = .ok e ∧
      a'.byParameter = bookCredits item.itemType [] (creditsOf e.details) a.byParameter := by
  rw [addItem_eq] at h
  by_cases positive : 0 < item.baseAmount
  · rw [if_pos positive, bind_eq_ok_iff] at h
    obtain ⟨e, he, h⟩ := h
    rw [pure_eq_ok_iff] at h
    rw [← h]
    exact ⟨e, he, rfl⟩
  · have hsteps : stepsOf tactic exclusions item = [] := if_neg positive
    rw [if_neg positive, Except.ok.injEq] at h
    rw [hsteps, ← h]
    exact ⟨_, rfl, rfl⟩

end Items

/-! ## Once or per use -/

section Uses

variable {key : String} {steps : List (String × StepDetail Rat)}

theorem creditedPerUse_ne_nil_iff :
    creditedPerUse key steps ≠ [] ↔ ∃ s ∈ steps, key ∈ s.2.parameterKeys := by
  rw [creditedPerUse, Ne, List.flatMap_eq_nil_iff]
  simp only [List.replicate_eq_nil_iff, List.count_eq_zero]
  push Not
  rfl

/-- Without a step that names the parameter twice the two readings are one. -/
theorem creditedPerUse_eq_once (h : ∀ s ∈ steps, s.2.parameterKeys.count key ≤ 1) :
    creditedPerUse key steps = creditedOnce key steps := by
  induction steps with
  | nil => rfl
  | cons s rest ih =>
    rw [List.forall_mem_cons] at h
    have hrest := ih h.2
    unfold creditedPerUse creditedOnce at hrest ⊢
    rw [List.flatMap_cons, hrest]
    by_cases hkey : key ∈ s.2.parameterKeys
    · have hcount : s.2.parameterKeys.count key = 1 := by
        have hpos := List.count_pos_iff.mpr hkey
        omega
      rw [hcount, List.filter_cons_of_pos (by simpa using hkey)]
      rfl
    · rw [List.count_eq_zero.mpr hkey, List.filter_cons_of_neg (by simpa using hkey)]
      rfl

theorem length_creditedPerUse :
    (creditedPerUse key steps).length =
      (creditedOnce key steps).length + (steps.map fun s => s.2.parameterKeys.count key - 1).sum := by
  induction steps with
  | nil => rfl
  | cons s rest ih =>
    unfold creditedPerUse creditedOnce at ih ⊢
    rw [List.flatMap_cons, List.length_append, List.length_replicate, ih, List.map_cons,
      List.sum_cons]
    by_cases hkey : key ∈ s.2.parameterKeys
    · have hpos := List.count_pos_iff.mpr hkey
      rw [List.filter_cons_of_pos (by simpa using hkey), List.map_cons, List.length_cons]
      omega
    · have hzero := List.count_eq_zero.mpr hkey
      rw [List.filter_cons_of_neg (by simpa using hkey)]
      omega

theorem count_le_one_of_length_eq
    (h : (creditedOnce key steps).length = (creditedPerUse key steps).length) :
    ∀ s ∈ steps, s.2.parameterKeys.count key ≤ 1 := by
  rw [length_creditedPerUse] at h
  have hsum : (steps.map fun s => s.2.parameterKeys.count key - 1).sum = 0 := by omega
  rw [List.sum_eq_zero_iff_forall_eq_nat] at hsum
  intro s hs
  have hzero := hsum _ (List.mem_map.mpr ⟨s, hs, rfl⟩)
  omega

end Uses

/-! ## The totals of a tender -/

/-- The credits that an item gives to a parameter are those of its steps per use. -/
theorem filter_creditsOf (key itemType : String) (details : List (StepDetail Rat)) :
    ((creditsOf details).filter (·.1 == key)).map (fun credit => (itemType, credit.2)) =
      creditedPerUse key (details.map fun detail => (itemType, detail)) := by
  induction details with
  | nil => rfl
  | cons detail rest ih =>
    have hkeys : ((detail.parameterKeys.map fun name => (name, detail.markupAmount)).filter
        (·.1 == key)).map (fun credit => (itemType, credit.2)) =
          List.replicate (detail.parameterKeys.count key) (itemType, detail.markupAmount) := by
      rw [List.filter_map, List.map_map]
      show (detail.parameterKeys.filter (· == key)).map _ = _
      rw [List.filter_beq, List.map_replicate]
      rfl
    unfold creditsOf creditedPerUse at ih ⊢
    rw [List.flatMap_cons, List.filter_append, List.map_append, ih, hkeys, List.map_cons,
      List.flatMap_cons]

theorem mem_creditsOf_iff {key : String} {details : List (StepDetail Rat)} :
    key ∈ (creditsOf details).map (·.1) ↔ ∃ keys ∈ details.map (·.parameterKeys), key ∈ keys := by
  simp [creditsOf, List.mem_flatMap]

section Totals

variable {tactic : Tactic Rat} {rates : Rates Rat} {exclusions : Exclusions} {withDetails : Bool}
variable {key : String} {entries : List (String × Rat)}

/-- One item adds the uses of its steps, and counts if one of its steps names the parameter. -/
theorem addItem_booked {a a' : Aggregation Rat} {item : Item Rat} {count : Nat}
    (booked : Booked key a.byParameter entries count)
    (h : Aggregation.addItem tactic rates exclusions withDetails a item = .ok a') :
    ∃ steps, runItem tactic rates exclusions item = .ok steps ∧
      Booked key a'.byParameter (entries ++ creditedPerUse key steps)
        (count + if (stepsOf tactic exclusions item).any (·.usesKey key) then 1 else 0) := by
  obtain ⟨e, he, htable⟩ := addItem_runs h
  have hrun : runItem tactic rates exclusions item =
      .ok (e.details.map fun detail => (item.itemType, detail)) := by
    rw [runItem, he]
    rfl
  have hkeys := runItem_parameterKeys hrun
  rw [List.map_map] at hkeys
  have hnames : (key ∉ ([] : List String) ∧ key ∈ (creditsOf e.details).map (·.1)) ↔
      (stepsOf tactic exclusions item).any (·.usesKey key) = true := by
    rw [mem_creditsOf_iff]
    show _ ∧ (∃ keys ∈ e.details.map (·.parameterKeys), key ∈ keys) ↔ _
    rw [show e.details.map (·.parameterKeys) = _ from hkeys]
    simp [Step.usesKey]
  have hbooked : Booked key (bookCredits item.itemType [] (creditsOf e.details) a.byParameter) _ _ :=
    bookCredits_booked item.itemType [] booked
  rw [filter_creditsOf, if_congr hnames rfl rfl, ← htable] at hbooked
  refine ⟨_, hrun, ?_⟩
  by_cases hany : (stepsOf tactic exclusions item).any (·.usesKey key) = true
  · rw [if_pos hany] at hbooked ⊢
    exact hbooked
  · rw [if_neg hany] at hbooked ⊢
    exact hbooked

theorem foldlM_addItem_booked {items : List (Item Rat)} :
    ∀ {a a' : Aggregation Rat} {entries : List (String × Rat)} {count : Nat},
      Booked key a.byParameter entries count →
        items.foldlM (Aggregation.addItem tactic rates exclusions withDetails) a = .ok a' →
          ∃ steps, runItems tactic rates exclusions items = .ok steps ∧
            Booked key a'.byParameter (entries ++ creditedPerUse key steps)
              (count + items.countP fun item =>
                (stepsOf tactic exclusions item).any (·.usesKey key)) := by
  induction items with
  | nil =>
    intro a a' entries count booked h
    rw [List.foldlM_nil, pure_eq_ok_iff] at h
    subst h
    refine ⟨[], rfl, ?_⟩
    simpa [creditedPerUse] using booked
  | cons item rest ih =>
    intro a a' entries count booked h
    rw [List.foldlM_cons, bind_eq_ok_iff] at h
    obtain ⟨next, hnext, h⟩ := h
    obtain ⟨first, hfirst, hbooked⟩ := addItem_booked booked hnext
    obtain ⟨later, hlater, hrest⟩ := ih hbooked h
    refine ⟨first ++ later, by rw [runItems, hfirst, ok_bind, hlater]; rfl, ?_⟩
    have huses : creditedPerUse key (first ++ later) =
        creditedPerUse key first ++ creditedPerUse key later := List.flatMap_append
    rw [huses, ← List.append_assoc, List.countP_cons, ← Nat.add_assoc count, Nat.add_right_comm]
    exact hrest

theorem runItems_names_iff {items : List (Item Rat)} {steps : List (String × StepDetail Rat)}
    (h : runItems tactic rates exclusions items = .ok steps) {keys : List String} :
    (∃ s ∈ steps, s.2.parameterKeys = keys) ↔
      ∃ item ∈ items, ∃ step ∈ stepsOf tactic exclusions item, step.parameterKeys = keys := by
  rw [← List.mem_map, runItems_parameterKeys h, List.mem_flatMap]
  simp only [List.mem_map]

theorem exists_usesKey_iff {items : List (Item Rat)} {steps : List (String × StepDetail Rat)}
    (h : runItems tactic rates exclusions items = .ok steps) :
    (∃ s ∈ steps, key ∈ s.2.parameterKeys) ↔
      ∃ item ∈ items, ∃ step ∈ stepsOf tactic exclusions item, step.usesKey key = true := by
  constructor
  · rintro ⟨s, hs, hkey⟩
    obtain ⟨item, hitem, step, hstep, hkeys⟩ := (runItems_names_iff h).mp ⟨s, hs, rfl⟩
    exact ⟨item, hitem, step, hstep, by simpa [Step.usesKey, hkeys] using hkey⟩
  · rintro ⟨item, hitem, step, hstep, huses⟩
    obtain ⟨s, hs, hkeys⟩ := (runItems_names_iff h).mpr ⟨item, hitem, step, hstep, rfl⟩
    exact ⟨s, hs, by simpa [Step.usesKey, ← hkeys] using huses⟩

theorem count_le_one_iff {items : List (Item Rat)} {steps : List (String × StepDetail Rat)}
    (h : runItems tactic rates exclusions items = .ok steps) :
    (∀ s ∈ steps, s.2.parameterKeys.count key ≤ 1) ↔
      ∀ item ∈ items, ∀ step ∈ stepsOf tactic exclusions item, step.parameterKeys.count key ≤ 1 := by
  constructor
  · intro hle item hitem step hstep
    obtain ⟨s, hs, hkeys⟩ := (runItems_names_iff h).mpr ⟨item, hitem, step, hstep, rfl⟩
    rw [← hkeys]
    exact hle s hs
  · intro hle s hs
    obtain ⟨item, hitem, step, hstep, hkeys⟩ := (runItems_names_iff h).mp ⟨s, hs, rfl⟩
    rw [← hkeys]
    exact hle item hitem step hstep

/-- The totals of a parameter over a tender: there are some if a step that was run names it; they
count the items that run such a step, and add up the steps per use.  They count each step once
exactly where no step names the parameter twice. -/
theorem aggregate_credits {items : List (Item Rat)} {a : Aggregation Rat}
    (aggregated : aggregate items tactic rates exclusions withDetails = .ok a) (key : String) :
    ∃ steps, runItems tactic rates exclusions items = .ok steps ∧
      ((a.byParameter.lookup key).isSome = true ↔
        ∃ item ∈ items, ∃ step ∈ stepsOf tactic exclusions item, step.usesKey key = true) ∧
      ∀ p, a.byParameter.lookup key = some p →
        p.itemCount = (items.countP fun item =>
          (stepsOf tactic exclusions item).any (·.usesKey key)) ∧
        p.Tallies (creditedPerUse key steps) ∧
        (p.Tallies (creditedOnce key steps) ↔
          ∀ item ∈ items, ∀ step ∈ stepsOf tactic exclusions item,
            step.parameterKeys.count key ≤ 1) := by
  obtain ⟨steps, hsteps, hbooked⟩ := foldlM_addItem_booked (Booked.nil key) aggregated
  rw [List.nil_append, Nat.zero_add] at hbooked
  refine ⟨steps, hsteps, ?_, ?_⟩
  · rw [hbooked.present, creditedPerUse_ne_nil_iff, exists_usesKey_iff hsteps]
  · intro p hp
    have hcount := hbooked.itemCount
    have htallies := hbooked.tallies
    rw [hp, Option.getD_some] at hcount htallies
    refine ⟨hcount, htallies, ?_⟩
    rw [← count_le_one_iff hsteps]
    constructor
    · intro honce
      exact count_le_one_of_length_eq (honce.stepsCount.symm.trans htallies.stepsCount)
    · intro hle
      rwa [← creditedPerUse_eq_once hle]

end Totals

/-- One step that takes the same profit twice. -/
def profitTwice : Tactic Rat where
  sequences := [("раб",
    [⟨-1, [⟨.multiply, .rate "profit_own_forces" .addOne⟩,
      ⟨.multiply, .rate "profit_own_forces" .addOne⟩], .null⟩])]

def profitRates : Rates Rat := .ofList [("profit_own_forces", some 100)]

def oneWork : Item Rat where
  id := "1"
  itemType := "раб"
  totalAmount := some 100

theorem aggregate_credits_profitTwice :
    ∃ a, aggregate [oneWork] profitTwice profitRates {} false = .ok a ∧
      ∃ steps, runItems profitTwice profitRates {} [oneWork] = .ok steps ∧
        ((a.byParameter.lookup "profit_own_forces").isSome = true ↔
          ∃ item ∈ [oneWork], ∃ step ∈ stepsOf profitTwice {} item,
            step.usesKey "profit_own_forces" = true) ∧
        ∀ p, a.byParameter.lookup "profit_own_forces" = some p →
          p.itemCount = ([oneWork].countP fun item =>
            (stepsOf profitTwice {} item).any (·.usesKey "profit_own_forces")) ∧
          p.Tallies (creditedPerUse "profit_own_forces" steps) ∧
          (p.Tallies (creditedOnce "profit_own_forces" steps) ↔
            ∀ item ∈ [oneWork], ∀ step ∈ stepsOf profitTwice {} item,
              step.parameterKeys.count "profit_own_forces" ≤ 1) := by
  have hvalue :
      (aggregate [oneWork] profitTwice profitRates {} false).toOption.isSome = true := by
    decide +kernel
  obtain ⟨a, ha⟩ := Option.isSome_iff_exists.mp hvalue
  have haggregated := eq_ok_of_toOption ha
  exact ⟨a, haggregated, aggregate_credits haggregated "profit_own_forces"⟩

/-- The markup of three hundred that the one step adds is credited twice. -/
theorem profitTwice_not_creditedOnce :
    ∃ a p steps, aggregate [oneWork] profitTwice profitRates {} false = .ok a ∧
      a.byParameter.lookup "profit_own_forces" = some p ∧
      runItems profitTwice profitRates {} [oneWork] = .ok steps ∧
      creditedOnce "profit_own_forces" steps = [("раб", 300)] ∧
      p.markupAmount = 600 ∧ p.stepsCount = 2 ∧
      ¬ p.Tallies (creditedOnce "profit_own_forces" steps) := by
  have htotals : ((aggregate [oneWork] profitTwice profitRates {} false).toOption.bind fun a =>
      (a.byParameter.lookup "profit_own_forces").map fun p => (p.markupAmount, p.stepsCount)) =
        some (600, 2) := by decide +kernel
  have hsteps : ((runItems profitTwice profitRates {} [oneWork]).toOption.map
      (creditedOnce "profit_own_forces")) = some [("раб", 300)] := by decide +kernel
  obtain ⟨a, ha, htotals⟩ := Option.bind_eq_some_iff.mp htotals
  obtain ⟨p, hp, htotals⟩ := Option.map_eq_some_iff.mp htotals
  obtain ⟨steps, hrun, hsteps⟩ := Option.map_eq_some_iff.mp hsteps
  obtain ⟨hamount, hcount⟩ := Prod.mk.inj htotals
  refine ⟨a, p, steps, eq_ok_of_toOption ha, hp, eq_ok_of_toOption hrun, hsteps, hamount, hcount,
    fun h => ?_⟩
  have honce := h.stepsCount
  rw [hcount, hsteps] at honce
  cases honce

end Pricing
end TenderPricing
