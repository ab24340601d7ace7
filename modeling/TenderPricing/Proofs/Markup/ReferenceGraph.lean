import Mathlib.Data.List.Basic
import TenderPricing.Proofs.Markup.References
/-!
A sequence as a graph of references.

`valueAt` gives every reference a number by recursion along the references alone: the base value
for the base reference, and for a step its operations over the numbers that its own references
stand for.  `evaluate` instead runs through a growing list of results.  The step lemma
`Step.run_eq` needs of that list only that it holds the values of the references that the step may
make; `runFrom_eq` carries this along the sequence, up to the first step that fails.
-/
namespace TenderPricing
namespace Markup

variable {α : Type}

/-! ## Values by recursion on references -/

section Values

variable [Arithmetic α]

/-- The number that an action makes of two; a word that names no action leaves the first. -/
def Action.combine (action : Action) (lhs rhs : α) : α :=
  match action with
  | multiply => lhs * rhs
  | divide => lhs / rhs
  | add => lhs + rhs
  | subtract => lhs - rhs
  | other _ => lhs

/-- The percentage of a key; one that is missing, null or zero is a plain zero. -/
def percentOf (values : List (String × Option α)) (key : String) : α :=
  match values.lookup key with
  | some (some percent) => if percent == 0.0 then 0.0 else percent
  | _ => 0.0

variable (values : List (String × Option α)) (reference : Int → α)

/-- The number of an operand, given the numbers of references. -/
def Operand.value : Operand α → α
  | rate key .addOne => 1.0 + percentOf values key / 100.0
  | rate key .direct => percentOf values key / 100.0
  | step index => reference index
  | number x => x
  | unsupported => 0.0

/-- The operations of a step from left to right, over the number that its base reference has. -/
def Step.value (step : Step α) : α :=
  step.operations.foldl
    (fun running op => op.action.combine running (op.operand.value values reference))
    (reference step.baseIndex)

inductive StepFailure where
  | divisionByZero
  | nonFinite
  deriving DecidableEq, Repr

/-- The failure of the step at a position of a sequence. -/
def StepFailure.locate (sequence : String) (position : Int) : StepFailure → EvaluationError
  | divisionByZero => .divisionByZero sequence position
  | nonFinite => .nonFinite sequence position

/-- Whether an operation divides by zero. -/
def Operation.dividesByZero (op : Operation α) : Bool :=
  op.action = .divide && op.operand.value values reference == 0.0

/-- What a step fails with: a divisor that is zero comes before a value that is not finite. -/
def Step.failure? (step : Step α) : Option StepFailure :=
  if step.operations.any (·.dividesByZero values reference) then some .divisionByZero
  else if Arithmetic.isFinite (step.value values reference) then none
  else some .nonFinite

end Values

section Graph

variable [Arithmetic α] (steps : List (Step α)) (base : α) (values : List (String × Option α))

/-- The number that a reference stands for.  Only references that lead backwards are followed;
all others count as the base value. -/
def valueAt (index : Int) : α :=
  if 0 ≤ index then
    match steps[index.toNat]? with
    | some step => step.value values fun earlier =>
        if earlier < index then valueAt earlier else base
    | none => base
  else base
termination_by (index + 1).toNat

/-- What the step at a position fails with, given the values of its references. -/
def failureAt (position : Nat) : Option StepFailure :=
  steps[position]?.bind (·.failure? values (valueAt steps base values))

/-- What the step at a position does if nothing fails. -/
def detailAt (position : Nat) (step : Step α) : StepDetail α where
  stepIndex := position
  stepName := step.name
  parameterKeys := step.parameterKeys
  baseValue := valueAt steps base values step.baseIndex
  result := valueAt steps base values position

end Graph

/-! ## The recursion without its guards -/

section Recursion

variable [Arithmetic α] {values : List (String × Option α)} {reference reference' : Int → α}

theorem Rates.ofList_eq (key : String) :
    Rates.ofList values key = .ok (percentOf values key) := by
  unfold Rates.ofList percentOf Rates.orZero
  cases values.lookup key with
  | none => rfl
  | some value =>
    cases value with
    | none => rfl
    | some percent => rfl

theorem Operand.value_congr {operand : Operand α}
    (same : ∀ index, operand = .step index → reference index = reference' index) :
    operand.value values reference = operand.value values reference' := by
  cases operand with
  | step index => exact same index rfl
  | rate key form => cases form <;> rfl
  | _ => rfl

/-- The value of a step depends on no other references than those it may make. -/
theorem Step.value_congr {position : Nat} {step : Step α} (fits : step.FitsAt position)
    (same : ∀ index, mayRefer position index = true → reference index = reference' index) :
    step.value values reference = step.value values reference' := by
  rw [Step.value, Step.value, same step.baseIndex fits.base]
  refine List.foldl_ext _ _ _ fun running op hop => ?_
  rw [Operand.value_congr fun index hindex =>
    same index ((fits.operations op hop).refers index hindex)]

variable {steps : List (Step α)} {base : α}

theorem valueAt_base : valueAt steps base values baseReference = base := by
  rw [valueAt, if_neg (by decide)]

/-- In a valid sequence every reference leads backwards, and the guards of the recursion go. -/
theorem valueAt_step (valid : Valid steps) {position : Nat} {step : Step α}
    (hget : steps[position]? = some step) :
    valueAt steps base values position = step.value values (valueAt steps base values) := by
  rw [valueAt, if_pos (by omega), Int.toNat_natCast, hget]
  refine Step.value_congr (valid.fitsAt hget) fun index hindex => ?_
  rw [mayRefer_iff] at hindex
  rw [if_pos hindex.2]

end Recursion

/-! ## One step -/

/-- Results in which every reference to the steps that gave them reaches its number. -/
def Holds (base : α) (reference : Int → α) (results : List α) : Prop :=
  ∀ index, mayRefer results.length index = true →
    reach? base results index = some (reference index)

theorem Holds.nil {base : α} {reference : Int → α} (hbase : reference baseReference = base) :
    Holds base reference [] := by
  intro index h
  rw [mayRefer_iff] at h
  have hindex : index = baseReference := by
    rw [baseReference]
    simp only [List.length_nil] at h
    omega
  rw [hindex, reach?_base, hbase]

theorem Holds.concat {base : α} {reference : Int → α} {results : List α}
    (h : Holds base reference results) :
    Holds base reference (results ++ [reference results.length]) := by
  intro index hindex
  rw [reach?_concat]
  by_cases hlast : index = results.length
  · rw [if_pos hlast, hlast]
  · rw [if_neg hlast]
    refine h index ?_
    rw [mayRefer_iff] at hindex ⊢
    rw [List.length_append, List.length_singleton] at hindex
    omega

section Step

variable [Arithmetic α] {base : α} {values : List (String × Option α)} {sequence : String}
variable {results : List α} {reference : Int → α}

theorem Operand.resolve_eq {operand : Operand α} (supported : operand ≠ .unsupported)
    (refers : ∀ index, operand = .step index → reach? base results index = some (reference index))
    (position : Int) :
    operand.resolve base results (.ofList values) sequence position =
      .ok (operand.value values reference) := by
  cases operand with
  | rate key form =>
    simp only [Operand.resolve, Rates.ofList_eq]
    cases form <;> rfl
  | step index => exact reach_eq_ok_iff.mpr (refers index rfl)
  | number x => rfl
  | unsupported => exact absurd rfl supported

theorem Action.apply_eq {action : Action} (known : action.isKnown = true) (lhs rhs : α) :
    action.apply lhs rhs =
      if (action = .divide && rhs == 0.0) = true then .error .divisionByZero
      else .ok (action.combine lhs rhs) := by
  cases action with
  | divide => simp [Action.apply, Action.combine]
  | other word => simp [Action.isKnown] at known
  | _ => simp [Action.apply, Action.combine]

/-- Operations divide by zero or fold to their value; which of them divides does not matter. -/
theorem applyAll_eq (position : Int) {operations : List (Operation α)} :
    ∀ (running : α), (∀ op ∈ operations, op.FitsAt results.length) →
      (∀ op ∈ operations, op.operand ≠ .unsupported) →
      Holds base reference results →
      applyAll base results (.ofList values) sequence position running operations =
        if operations.any (·.dividesByZero values reference) = true then
          .error (.divisionByZero sequence position)
        else .ok (operations.foldl
          (fun running op => op.action.combine running (op.operand.value values reference))
          running) := by
  induction operations with
  | nil => intros; rfl
  | cons op rest ih =>
    intro running fits supported reached
    rw [List.forall_mem_cons] at fits supported
    have hrefers : ∀ index, op.operand = .step index →
        reach? base results index = some (reference index) :=
      fun index hindex => reached index (fits.1.refers index hindex)
    rw [applyAll, Operand.resolve_eq supported.1 hrefers, ok_bind, Action.apply_eq fits.1.known]
    rw [List.any_cons, List.foldl_cons]
    by_cases hzero : op.dividesByZero values reference = true
    · have hdivides := hzero
      unfold Operation.dividesByZero at hdivides
      rw [if_pos hdivides, hzero, Bool.true_or, if_pos rfl]
    · have hdivides := hzero
      unfold Operation.dividesByZero at hdivides
      rw [if_neg hdivides, Bool.eq_false_iff.mpr hzero, Bool.false_or]
      exact ih _ fits.2 supported.2 reached

/-- A step over results that hold the values of its references fails as `failure?` says or has
its value. -/
theorem Step.run_eq {step : Step α} (fits : step.FitsAt results.length) (supported : step.Supported)
    (reached : Holds base reference results) :
    step.run base (.ofList values) sequence results =
      match step.failure? values reference with
      | some failure => .error (failure.locate sequence results.length)
      | none => .ok ⟨results.length, step.name, step.parameterKeys, reference step.baseIndex,
          step.value values reference⟩ := by
  have hstart := reached step.baseIndex fits.base
  rw [Step.run, reach_eq_ok_iff.mpr hstart, ok_bind,
    applyAll_eq results.length (reference step.baseIndex) fits.operations supported reached]
  unfold Step.failure? Step.value
  by_cases hzero : step.operations.any (·.dividesByZero values reference) = true
  · rw [if_pos hzero, if_pos hzero]
    rfl
  · rw [if_neg hzero, if_neg hzero, ok_bind]
    split <;> rfl

end Step

/-! ## The whole run -/

section Run

variable [Arithmetic α] {steps : List (Step α)}

/-- The step at a position, behind results that hold the values of the graph, fails as the graph
says or gives the detail of the graph. -/
theorem Step.run_at (valid : Valid steps) (supported : ∀ step ∈ steps, step.Supported)
    {base : α} {values : List (String × Option α)} (sequence : String) {step : Step α}
    {results : List α} (hget : steps[results.length]? = some step)
    (holds : Holds base (valueAt steps base values) results) :
    step.run base (.ofList values) sequence results =
      match failureAt steps base values results.length with
      | some failure => .error (failure.locate sequence results.length)
      | none => .ok (detailAt steps base values results.length step) := by
  have hfailure : failureAt steps base values results.length =
      step.failure? values (valueAt steps base values) := by
    rw [failureAt, hget, Option.bind_some]
  rw [Step.run_eq (valid.fitsAt hget) (supported step (List.mem_of_getElem? hget)) holds, hfailure,
    detailAt, valueAt_step valid hget]

/-- The steps behind `front` run to the details of the graph, or to the first failure among them.
The induction is on the steps to come; the results so far hold the values of their references. -/
theorem runFrom_eq (valid : Valid steps) (supported : ∀ step ∈ steps, step.Supported) (base : α)
    (values : List (String × Option α)) (sequence : String) {rest : List (Step α)} :
    ∀ (front : List (Step α)), front ++ rest = steps →
      Holds base (valueAt steps base values)
        ((front.mapIdx (detailAt steps base values)).map (·.result)) →
      ((∀ i, front.length ≤ i → i < steps.length → failureAt steps base values i = none) →
        runFrom base (.ofList values) sequence (front.mapIdx (detailAt steps base values)) rest =
          .ok (steps.mapIdx (detailAt steps base values))) ∧
      ∀ i failure, front.length ≤ i → failureAt steps base values i = some failure →
        (∀ j, front.length ≤ j → j < i → failureAt steps base values j = none) →
          runFrom base (.ofList values) sequence (front.mapIdx (detailAt steps base values)) rest =
            .error (failure.locate sequence i) := by
  induction rest with
  | nil =>
    intro front hsteps _
    rw [List.append_nil] at hsteps
    subst hsteps
    refine ⟨fun _ => rfl, fun i failure hi hfailure _ => ?_⟩
    rw [failureAt, List.getElem?_eq_none hi] at hfailure
    cases hfailure
  | cons step rest ih =>
    intro front hsteps holds
    have hlength : ((front.mapIdx (detailAt steps base values)).map (·.result)).length =
        front.length := by
      rw [List.length_map, List.length_mapIdx]
    have hget : steps[front.length]? = some step := by
      rw [← hsteps]
      simp
    have hlt : front.length < steps.length := (List.getElem?_eq_some_iff.mp hget).1
    have hrun := Step.run_at valid supported sequence (by rw [hlength]; exact hget) holds
    rw [hlength] at hrun
    rw [runFrom, hrun]
    cases hfails : failureAt steps base values front.length with
    | some failure =>
      -- The run ends here, and no earlier step has failed.
      refine ⟨fun hnone => ?_, fun i failure' hi hfailure' hfirst => ?_⟩
      · rw [hnone front.length (Nat.le_refl _) hlt] at hfails
        cases hfails
      · have hsame : i = front.length := by
          by_contra hne
          rw [hfirst front.length (Nat.le_refl _) (by omega)] at hfails
          cases hfails
        subst hsame
        rw [hfails, Option.some.injEq] at hfailure'
        subst hfailure'
        rfl
    | none =>
      have hdetails : (front ++ [step]).mapIdx (detailAt steps base values) =
          front.mapIdx (detailAt steps base values) ++
            [detailAt steps base values front.length step] := by
        rw [List.mapIdx_append, List.mapIdx_singleton, Nat.zero_add]
      have hnext := holds.concat
      rw [hlength] at hnext
      have hrest := ih (front ++ [step]) (by rw [← hsteps]; simp)
        (by rw [hdetails, List.map_append]; exact hnext)
      rw [hdetails, List.length_append, List.length_singleton] at hrest
      refine ⟨fun hnone => hrest.1 fun i hi => hnone i (by omega),
        fun i failure hi hfailure hfirst => ?_⟩
      have hne : i ≠ front.length := by
        rintro rfl
        rw [hfails] at hfailure
        cases hfailure
      exact hrest.2 i failure (by omega) hfailure fun j hj => hfirst j (by omega)

/-- A valid sequence evaluates to the values of its graph unless a step fails. -/
theorem evaluate_eq_ok (valid : Valid steps) (supported : ∀ step ∈ steps, step.Supported)
    (base : α) (values : List (String × Option α)) (sequence : String)
    (clean : ∀ i < steps.length, failureAt steps base values i = none) :
    evaluate steps base (.ofList values) sequence =
      .ok ⟨base, finalValue base (steps.mapIdx (detailAt steps base values)),
        steps.mapIdx (detailAt steps base values)⟩ := by
  have hrun := (runFrom_eq valid supported base values sequence [] rfl (Holds.nil valueAt_base)).1
    fun i _ hi => clean i hi
  rw [List.mapIdx_nil] at hrun
  rw [evaluate, hrun]
  rfl

theorem evaluate_eq_error (valid : Valid steps) (supported : ∀ step ∈ steps, step.Supported)
    (base : α) (values : List (String × Option α)) (sequence : String) {i : Nat}
    {failure : StepFailure} (fails : failureAt steps base values i = some failure)
    (first : ∀ j < i, failureAt steps base values j = none) :
    evaluate steps base (.ofList values) sequence = .error (failure.locate sequence i) := by
  have hrun := (runFrom_eq valid supported base values sequence [] rfl (Holds.nil valueAt_base)).2
    i failure (Nat.zero_le i) fails fun j _ hj => first j hj
  rw [List.mapIdx_nil] at hrun
  rw [evaluate, hrun]
  rfl

theorem finalValue_detailAt (base : α) (values : List (String × Option α))
    (front : List (Step α)) :
    finalValue base (front.mapIdx (detailAt steps base values)) =
      valueAt steps base values (front.length - 1) := by
  induction front using List.reverseRecOn with
  | nil => exact valueAt_base.symm
  | append_singleton front last _ =>
    have hlast : (((front ++ [last]).length : Nat) : Int) - 1 = front.length := by simp
    rw [hlast, List.mapIdx_append, List.mapIdx_singleton, Nat.zero_add, finalValue]
    simp [detailAt]

/-- The run computes the graph: `valueAt` satisfies its recursion at every step; the run ends well
exactly where no step of the graph fails, with the value of each step as its result, the value of
its base reference as its start and the value of the last step at the end; and otherwise it stops
at the first step that fails. -/
theorem evaluate_computes_valueAt (valid : Valid steps)
    (supported : ∀ step ∈ steps, step.Supported) (base : α) (values : List (String × Option α))
    (sequence : String) :
    (valueAt steps base values baseReference = base ∧
      ∀ (i : Nat) (step : Step α), steps[i]? = some step →
        valueAt steps base values i = step.value values (valueAt steps base values)) ∧
    ((∃ e, evaluate steps base (.ofList values) sequence = .ok e) ↔
      ∀ i < steps.length, failureAt steps base values i = none) ∧
    (∀ e, evaluate steps base (.ofList values) sequence = .ok e →
      e.results =
        (List.range steps.length).map (fun i : Nat => valueAt steps base values (i : Int)) ∧
      e.details.map (·.baseValue) =
        steps.map (fun step => valueAt steps base values step.baseIndex) ∧
      e.finalValue = valueAt steps base values (steps.length - 1)) ∧
    ∀ (i : Nat) (failure : StepFailure), failureAt steps base values i = some failure →
      (∀ j < i, failureAt steps base values j = none) →
        evaluate steps base (.ofList values) sequence = .error (failure.locate sequence i) := by
  have hclean : ∀ e, evaluate steps base (.ofList values) sequence = .ok e →
      ∀ i, failureAt steps base values i = none := by
    intro e he i
    -- Below a failing step there is a first one, and the run would stop there.
    induction i using Nat.strongRecOn with
    | ind i ih =>
      cases hfails : failureAt steps base values i with
      | none => rfl
      | some failure =>
        rw [evaluate_eq_error valid supported base values sequence hfails ih] at he
        cases he
  refine ⟨⟨valueAt_base, fun i step hget => valueAt_step valid hget⟩, ⟨?_, ?_⟩, ?_, ?_⟩
  · rintro ⟨e, he⟩ i _
    exact hclean e he i
  · intro clean
    exact ⟨_, evaluate_eq_ok valid supported base values sequence clean⟩
  · intro e he
    rw [evaluate_eq_ok valid supported base values sequence fun i _ => hclean e he i,
      Except.ok.injEq] at he
    subst he
    refine ⟨?_, ?_, finalValue_detailAt base values steps⟩
    · exact List.ext_getElem (by simp [Evaluation.results]) fun i _ _ => by
        simp [Evaluation.results, detailAt]
    · exact List.ext_getElem (by simp) fun i _ _ => by simp [detailAt]
  · intro i failure fails first
    exact evaluate_eq_error valid supported base values sequence fails first

end Run

/-- A fixed sum on top of the base value, growth of the base value, and their ratio times the base
value. -/
def ratioOfGrowth : List (Step Float) :=
  [⟨-1, [⟨.add, .number 50.0⟩], .null⟩,
    ⟨-1, [⟨.multiply, .rate "subcontract_works_cost_growth" .addOne⟩], .null⟩,
    ⟨1, [⟨.divide, .step 0⟩, ⟨.multiply, .step (-1)⟩], .null⟩]

def growthOfTen : List (String × Option Float) := [("subcontract_works_cost_growth", some 10.0)]

theorem evaluate_computes_valueAt_ratioOfGrowth :
    Valid ratioOfGrowth ∧ (∀ step ∈ ratioOfGrowth, step.Supported) ∧
      (∃ e, evaluate ratioOfGrowth 100.0 (.ofList growthOfTen) "суб-раб" = .ok e ∧
        e.results = (List.range ratioOfGrowth.length).map
          (fun i : Nat => valueAt ratioOfGrowth 100.0 growthOfTen (i : Int)) ∧
        e.details.map (·.baseValue) =
          ratioOfGrowth.map (fun step => valueAt ratioOfGrowth 100.0 growthOfTen step.baseIndex) ∧
        e.finalValue = valueAt ratioOfGrowth 100.0 growthOfTen 2) ∧
      ¬ ∀ i < ratioOfGrowth.length, failureAt ratioOfGrowth (-50.0) growthOfTen i = none := by
  have valid : Valid ratioOfGrowth := rfl
  have supported : ∀ step ∈ ratioOfGrowth, step.Supported := by
    simp [ratioOfGrowth, Step.Supported]
  obtain ⟨-, -, values, -⟩ :=
    evaluate_computes_valueAt valid supported 100.0 growthOfTen "суб-раб"
  obtain ⟨-, returns, -, -⟩ :=
    evaluate_computes_valueAt valid supported (-50.0) growthOfTen "суб-раб"
  have divides : evaluate ratioOfGrowth (-50.0) (.ofList growthOfTen) "суб-раб" =
      .error (.divisionByZero "суб-раб" 2) := rfl
  refine ⟨valid, supported, ⟨_, rfl, values _ rfl⟩, fun clean => ?_⟩
  obtain ⟨e, he⟩ := returns.mpr clean
  rw [divides] at he
  cases he

end Markup
end TenderPricing
