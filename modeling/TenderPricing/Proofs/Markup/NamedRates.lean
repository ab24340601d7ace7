import TenderPricing.Markup.Coefficient
import TenderPricing.Proofs.Keyed
import TenderPricing.Proofs.Markup.Redirection
import TenderPricing.Proofs.Markup.ReferenceGraph
/-!
The percentages that a sequence depends on.

A step asks for the percentages of the rates that it names and for no others, so a sequence does the
same with any two sets of percentages that agree on the rates of its steps.  Leaving growth out
takes names away and adds none.  Stored percentages agree where they hold the same number, and
entries that hold nothing can be dropped.
-/
namespace TenderPricing
namespace Markup

variable {α : Type}

/-- The rates that the steps of a sequence name. -/
def namedRates (steps : List (Step α)) : List String := steps.flatMap (·.parameterKeys)

/-- Percentages that are the same for each of the keys. -/
def Rates.AgreeOn (keys : List String) (rates rates' : Rates α) : Prop :=
  ∀ key ∈ keys, rates key = rates' key

theorem Rates.AgreeOn.mono {keys keys' : List String} {rates rates' : Rates α}
    (h : rates.AgreeOn keys rates') (hsubset : ∀ key ∈ keys', key ∈ keys) :
    rates.AgreeOn keys' rates' :=
  fun key hkey => h key (hsubset key hkey)

theorem mem_namedRates {steps : List (Step α)} {key : String} :
    key ∈ namedRates steps ↔ ∃ step ∈ steps, key ∈ step.parameterKeys := List.mem_flatMap

/-- Every rate that a shortened sequence names is one of the sequence. -/
theorem namedRates_withoutGrowth (steps : List (Step α)) (itemType : String) :
    ∀ key ∈ namedRates (withoutGrowth steps itemType), key ∈ namedRates steps := by
  intro key hkey
  unfold withoutGrowth at hkey
  cases hgrowth : growthParameter? itemType with
  | none => rwa [hgrowth] at hkey
  | some growth =>
    rw [hgrowth, mem_namedRates] at hkey
    obtain ⟨step, hstep, hnamed⟩ := hkey
    obtain ⟨original, hmem, references, rfl⟩ := exists_redirect_of_mem_dropFrom step hstep
    rw [Step.parameterKeys_redirect] at hnamed
    exact mem_namedRates.mpr ⟨original, hmem, hnamed⟩

variable [Arithmetic α]

/-! ## Runs with other percentages -/

section Runs

variable {rates rates' : Rates α} {base : α} {sequence : String} {results : List α}

theorem Operand.resolve_congr {operand : Operand α}
    (same : ∀ key, operand.key? = some key → rates key = rates' key) (position : Int) :
    operand.resolve base results rates sequence position =
      operand.resolve base results rates' sequence position := by
  cases operand with
  | rate key form => simp only [Operand.resolve, same key rfl]
  | _ => rfl

theorem applyAll_congr {operations : List (Operation α)} {position : Int} :
    ∀ value : α, rates.AgreeOn (operations.filterMap (·.operand.key?)) rates' →
      applyAll base results rates sequence position value operations =
        applyAll base results rates' sequence position value operations := by
  induction operations with
  | nil => exact fun _ _ => rfl
  | cons op rest ih =>
    intro value same
    have hoperand : ∀ key, op.operand.key? = some key → rates key = rates' key :=
      fun key hkey => same key (List.mem_filterMap.mpr ⟨op, List.mem_cons_self, hkey⟩)
    have hrest : rates.AgreeOn (rest.filterMap (·.operand.key?)) rates' := by
      refine same.mono fun key hkey => ?_
      obtain ⟨later, hlater, hnamed⟩ := List.mem_filterMap.mp hkey
      exact List.mem_filterMap.mpr ⟨later, List.mem_cons_of_mem op hlater, hnamed⟩
    rw [applyAll, applyAll, Operand.resolve_congr hoperand]
    simp only [ih _ hrest]

theorem Step.run_congr {step : Step α} (same : rates.AgreeOn step.parameterKeys rates') :
    step.run base rates sequence results = step.run base rates' sequence results := by
  simp only [Step.run, applyAll_congr _ same]

theorem runFrom_congr {steps : List (Step α)} :
    ∀ done : List (StepDetail α), rates.AgreeOn (namedRates steps) rates' →
      runFrom base rates sequence done steps = runFrom base rates' sequence done steps := by
  induction steps with
  | nil => exact fun _ _ => rfl
  | cons step rest ih =>
    intro done same
    rw [namedRates, List.flatMap_cons] at same
    have hstep : rates.AgreeOn step.parameterKeys rates' :=
      same.mono fun _ => List.mem_append_left _
    have hrest : rates.AgreeOn (namedRates rest) rates' :=
      same.mono fun _ => List.mem_append_right _
    rw [runFrom, runFrom, Step.run_congr hstep]
    simp only [ih _ hrest]

/-- A sequence does the same with either percentages: the run of every base value, its results,
details and errors, and the coefficient with its notices. -/
structure SameRuns (steps : List (Step α)) (rates rates' : Rates α) : Prop where
  evaluate : ∀ (base : α) (sequence : String),
    evaluate steps base rates sequence = evaluate steps base rates' sequence
  coefficient : ∀ sequence : String,
    coefficient steps rates sequence = coefficient steps rates' sequence

theorem sameRuns_of_agreeOn {steps : List (Step α)}
    (same : rates.AgreeOn (namedRates steps) rates') : SameRuns steps rates rates' := by
  have hrun : ∀ base sequence,
      Markup.evaluate steps base rates sequence = Markup.evaluate steps base rates' sequence := by
    intro base sequence
    rw [Markup.evaluate, Markup.evaluate, runFrom_congr [] same]
  refine ⟨hrun, fun sequence => ?_⟩
  simp only [Markup.coefficient, hrun]

end Runs

/-! ## Stored percentages -/

section Stored

variable {values values' : List (String × Option α)} {keys : List String}

/-- A stored percentage that counts as none: null or zero. -/
def IsNothing (value : Option α) : Prop := ∀ percent, value = some percent → (percent == 0.0) = true

theorem Rates.agreeOn_ofList (same : ∀ key ∈ keys, percentOf values key = percentOf values' key) :
    (Rates.ofList values).AgreeOn keys (.ofList values') := by
  intro key hkey
  rw [Rates.ofList_eq, Rates.ofList_eq, same key hkey]

theorem percentOf_of_isNothing {key : String} {value : Option α}
    (hlookup : values.lookup key = some value) (nothing : IsNothing value) :
    percentOf values key = 0.0 := by
  cases value with
  | none => simp only [percentOf, hlookup]
  | some percent => simp only [percentOf, hlookup, nothing percent rfl, if_true]

/-- Entries that hold nothing can be dropped from percentages with distinct keys. -/
theorem percentOf_filter {keep : String × Option α → Bool} (distinct : (values.map Prod.fst).Nodup)
    (dropped : ∀ entry ∈ values, keep entry = false → IsNothing entry.2) (key : String) :
    percentOf (values.filter keep) key = percentOf values key := by
  have hfound : (values.filter keep).lookup key = _ := Keyed.lookup_filter distinct key
  cases hlookup : values.lookup key with
  | none =>
    rw [hlookup, Option.filter_none] at hfound
    simp only [percentOf, hfound, hlookup]
  | some value =>
    rw [hlookup, Option.filter_some] at hfound
    cases hkeep : keep (key, value) with
    | true =>
      rw [hkeep, if_pos rfl] at hfound
      simp only [percentOf, hfound, hlookup]
    | false =>
      have hmem : (key, value) ∈ values := by
        obtain ⟨before, after, rfl, -⟩ := List.lookup_eq_some_iff.mp hlookup
        exact List.mem_append_cons_self
      rw [percentOf_of_isNothing hlookup (dropped _ hmem hkeep)]
      rw [hkeep] at hfound
      simp only [percentOf, hfound, Bool.false_eq_true, if_false]

/-- Percentages that come into force lose their nulls, and give every key what it had. -/
theorem Rates.ofTable_of_inForce {ε : Type} {table : Keyed String α}
    (distinct : (values.map Prod.fst).Nodup)
    (inForce : (Rates.inForce (some values) : Logged α ε (Keyed String α)).result = .ok table) :
    Rates.ofTable table = Rates.ofList values := by
  have htable : table = values.filterMap fun entry => entry.2.map (entry.1, ·) := by
    rw [← Keyed.ofList_of_nodup distinct]
    exact (Except.ok.inj inForce).symm
  have hkept : (table.map fun entry => (entry.1, some entry.2)) = values.filter (·.2.isSome) := by
    rw [htable, List.map_filterMap, ← List.filterMap_eq_filter]
    congr
    funext entry
    obtain ⟨key, value⟩ := entry
    cases value <;> rfl
  have hread : Rates.ofTable table = Rates.ofList (values.filter (·.2.isSome)) := by
    rw [← hkept]
    rfl
  funext key
  rw [hread, Rates.ofList_eq, Rates.ofList_eq, percentOf_filter distinct]
  intro entry _ hdropped percent hpercent
  rw [hpercent] at hdropped
  cases hdropped

/-- Percentages of other parameters change nothing. -/
theorem percentOf_append {extra : List (String × Option α)} {key : String}
    (unrelated : key ∉ extra.map Prod.fst) :
    percentOf (values ++ extra) key = percentOf values key := by
  simp only [percentOf, List.lookup_append, Keyed.lookup_of_not_mem unrelated, Option.or_none]

end Stored

end Markup
end TenderPricing
