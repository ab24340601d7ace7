import TenderPricing.Markup.Coefficient
import TenderPricing.Proofs.Markup.Loading
import TenderPricing.Proofs.Markup.Redirection
/-!
What can go wrong once a sequence is loaded.

The check at load time leaves arithmetic as the only cause of failure: a valid sequence of
supported operands, run with percentages that are numbers, has a finite result for each of its
steps or stops at a division by zero or at a result that is not finite.  One step lemma says so of
a step that fits behind the results so far; the run, the degree and the coefficient follow by
induction along the sequence.
-/
namespace TenderPricing
namespace Markup

variable {α : Type}

/-! ## Percentages that are numbers -/

/-- Percentages that hold a number for every key. -/
def Rates.Total (rates : Rates α) : Prop := ∀ key, ∃ percent, rates key = .ok percent

theorem Rates.ofList_total [Arithmetic α] (values : List (String × Option α)) :
    (Rates.ofList values).Total := by
  intro key
  unfold Rates.ofList
  cases values.lookup key with
  | none => exact ⟨_, rfl⟩
  | some value =>
    cases value with
    | none => exact ⟨_, rfl⟩
    | some percent => exact ⟨_, rfl⟩

theorem Rates.ofTable_total [Arithmetic α] (table : Keyed String α) :
    (Rates.ofTable table).Total := Rates.ofList_total _

/-! ## Degrees -/

theorem degreeAt_ok {degrees : List Int} {index : Int}
    (h : mayRefer degrees.length index = true) : ∃ degree, degreeAt degrees index = .ok degree := by
  obtain ⟨degree, hdegree⟩ := reach?_of_mayRefer 1 h
  exact ⟨degree, by rw [degreeAt, hdegree]⟩

theorem degreeAfter_ok {degrees : List Int} {operations : List (Operation α)} :
    ∀ (degree : Int), (∀ op ∈ operations, op.FitsAt degrees.length) →
      ∃ found, degreeAfter degrees degree operations = .ok found := by
  induction operations with
  | nil => intro degree _; exact ⟨some degree, rfl⟩
  | cons op rest ih =>
    intro degree fits
    rw [List.forall_mem_cons] at fits
    have hrhs : ∃ rhs, op.operand.degree degrees = .ok rhs := by
      cases hoperand : op.operand with
      | step index => exact degreeAt_ok (fits.1.refers index hoperand)
      | _ => exact ⟨0, rfl⟩
    obtain ⟨rhs, hrhs⟩ := hrhs
    rw [degreeAfter, hrhs, ok_bind]
    cases op.action with
    | multiply => exact ih (degree + rhs) fits.2
    | divide => exact ih (degree - rhs) fits.2
    | _ =>
      by_cases hsame : degree = rhs
      · simpa [hsame] using ih rhs fits.2
      · simp [hsame]

theorem degreeFrom_ok {steps : List (Step α)} :
    ∀ (degrees : List Int), problemsFrom degrees.length steps = [] →
      ∃ found, degreeFrom degrees steps = .ok found := by
  induction steps with
  | nil => intro degrees _; exact ⟨_, rfl⟩
  | cons step rest ih =>
    intro degrees fits
    rw [problemsFrom_cons_eq_nil_iff] at fits
    obtain ⟨start, hstart⟩ := degreeAt_ok fits.1.base
    obtain ⟨found, hfound⟩ := degreeAfter_ok start fits.1.operations
    rw [degreeFrom, hstart, ok_bind, hfound, ok_bind]
    cases found with
    | none => exact ⟨none, rfl⟩
    | some degree => exact ih (degrees ++ [degree]) (by simpa using fits.2)

theorem isScaleInvariant_ok {steps : List (Step α)} (valid : Valid steps) :
    ∃ invariant, isScaleInvariant steps = .ok invariant := by
  obtain ⟨found, hfound⟩ := degreeFrom_ok [] valid
  exact ⟨found == some 1, by rw [isScaleInvariant, degree, hfound, ok_bind]; rfl⟩

/-! ## Running a sequence -/

/-- The failures that arithmetic causes in the run of a sequence: a divisor that is zero, or a
number that is not finite, of a kind of number that has such. -/
inductive NumericFailure (α : Type) [Arithmetic α] (sequence : String) : EvaluationError → Prop
  | divisionByZero (step : Int) : NumericFailure α sequence (.divisionByZero sequence step)
  | nonFinite (step : Int) (value : α) (infinite : Arithmetic.isFinite value = false) :
    NumericFailure α sequence (.nonFinite sequence step)

variable [Arithmetic α] {base : α} {rates : Rates α} {sequence : String}

theorem Operand.resolve_ok (base : α) (sequence : String) {results : List α} {operand : Operand α}
    (total : rates.Total)
    (refers : ∀ index, operand = .step index → mayRefer results.length index = true)
    (supported : operand ≠ .unsupported) (position : Int) :
    ∃ value, operand.resolve base results rates sequence position = .ok value := by
  cases operand with
  | rate key form =>
    obtain ⟨percent, hpercent⟩ := total key
    exact ⟨form.factor percent, by simp [Operand.resolve, hpercent]⟩
  | step index =>
    obtain ⟨value, hvalue⟩ := reach?_of_mayRefer base (refers index rfl)
    exact ⟨value, by simp [Operand.resolve, reach, hvalue]⟩
  | number value => exact ⟨value, rfl⟩
  | unsupported => exact absurd rfl supported

theorem Action.apply_ends {action : Action} (known : action.isKnown = true) (lhs rhs : α) :
    Ends (fun _ => True) (· = .divisionByZero) (action.apply lhs rhs) := by
  cases action with
  | divide =>
    unfold Action.apply
    by_cases hzero : (rhs == 0.0) = true
    · rw [if_pos hzero]
      exact rfl
    · rw [if_neg hzero]
      exact trivial
  | other word => simp [Action.isKnown] at known
  | _ => exact trivial

theorem applyAll_ends {results : List α} (total : rates.Total) (position : Int)
    {operations : List (Operation α)} :
    ∀ (value : α), (∀ op ∈ operations, op.FitsAt results.length) →
      (∀ op ∈ operations, op.operand ≠ .unsupported) →
        Ends (fun _ => True) (NumericFailure α sequence)
          (applyAll base results rates sequence position value operations) := by
  induction operations with
  | nil => intros; exact trivial
  | cons op rest ih =>
    intro value fits supported
    rw [List.forall_mem_cons] at fits supported
    obtain ⟨rhs, hrhs⟩ := Operand.resolve_ok base sequence total fits.1.refers supported.1
      position
    rw [applyAll, hrhs, ok_bind]
    have happly := Action.apply_ends fits.1.known value rhs
    cases hresult : op.action.apply value rhs with
    | ok next => exact ih next fits.2 supported.2
    | error fault =>
      have hfault := happly.error hresult
      subst hfault
      exact .divisionByZero position

/-- A step that fits its place gives a finite result or a numeric failure. -/
theorem Step.run_ends {results : List α} {step : Step α} (total : rates.Total)
    (fits : step.FitsAt results.length) (supported : step.Supported) :
    Ends (fun detail => Arithmetic.isFinite detail.result = true) (NumericFailure α sequence)
      (step.run base rates sequence results) := by
  obtain ⟨start, hstart⟩ := reach?_of_mayRefer base fits.base
  simp only [Step.run, reach, hstart, ok_bind]
  refine (applyAll_ends total _ start fits.operations supported).bind fun value _ => ?_
  by_cases hfinite : Arithmetic.isFinite value = true
  · rw [if_pos hfinite]
    exact hfinite
  · rw [if_neg hfinite]
    exact .nonFinite _ value (by simpa using hfinite)

/-- The run of the steps that follow `done`: the step lemma, by induction along the sequence. -/
theorem runFrom_ends (base : α) (sequence : String) (total : rates.Total)
    {steps : List (Step α)} :
    ∀ (done : List (StepDetail α)), problemsFrom done.length steps = [] →
      (∀ step ∈ steps, step.Supported) →
        (∀ detail ∈ done, Arithmetic.isFinite detail.result = true) →
          Ends (fun details => details.length = done.length + steps.length ∧
              ∀ detail ∈ details, Arithmetic.isFinite detail.result = true)
            (NumericFailure α sequence) (runFrom base rates sequence done steps) := by
  induction steps with
  | nil => intro done _ _ hfinite; exact ⟨rfl, hfinite⟩
  | cons step rest ih =>
    intro done fits supported hfinite
    rw [problemsFrom_cons_eq_nil_iff] at fits
    rw [List.forall_mem_cons] at supported
    have hfits : step.FitsAt (done.map (·.result)).length := by
      rw [List.length_map]
      exact fits.1
    rw [runFrom]
    refine (Step.run_ends total hfits supported.1).bind fun detail hdetail => ?_
    have hlength : (done ++ [detail]).length = done.length + 1 := by simp
    have hrest := ih (done ++ [detail]) (by rw [hlength]; exact fits.2) supported.2 (by
      intro d hd
      rcases List.mem_append.mp hd with hd | hd
      · exact hfinite d hd
      · rw [List.mem_singleton] at hd
        subst hd
        exact hdetail)
    have hcount : (done ++ [detail]).length + rest.length = done.length + (step :: rest).length := by
      rw [hlength, List.length_cons]
      omega
    rw [hcount] at hrest
    exact hrest

/-- A valid sequence has one finite result for each step, or a numeric failure. -/
theorem evaluate_ends (base : α) (sequence : String) {steps : List (Step α)} (total : rates.Total)
    (valid : Valid steps) (supported : ∀ step ∈ steps, step.Supported) :
    Ends (fun e => e.results.length = steps.length ∧ ∀ x ∈ e.results, Arithmetic.isFinite x = true)
      (NumericFailure α sequence) (evaluate steps base rates sequence) := by
  have hrun := runFrom_ends base sequence total [] valid supported (by simp)
  refine hrun.bind fun details hdetails => ⟨?_, ?_⟩
  · rw [Evaluation.results, List.length_map, hdetails.1]
    simp
  · intro x hx
    rw [Evaluation.results, List.mem_map] at hx
    obtain ⟨detail, hmem, rfl⟩ := hx
    exact hdetails.2 detail hmem

/-! ## Coefficients -/

theorem coefficient_result {steps : List (Step α)} (valid : Valid steps) (rates : Rates α)
    (sequence : String) :
    (coefficient steps rates sequence).result =
      evaluate steps probeBase rates sequence >>= fun e => .ok (e.finalValue / probeBase) := by
  obtain ⟨invariant, hinvariant⟩ := isScaleInvariant_ok valid
  simp only [coefficient, Logged.result_bind, Logged.result_lift, Logged.result_tellIf,
    Logged.result_pure, checkValid_of_valid valid, hinvariant, Except.mapError, ok_bind]

theorem coefficient_ends {steps : List (Step α)} (total : rates.Total) (valid : Valid steps)
    (supported : ∀ step ∈ steps, step.Supported) :
    Ends (fun _ => True) (NumericFailure α sequence) (coefficient steps rates sequence).result := by
  rw [coefficient_result valid]
  exact (evaluate_ends probeBase sequence total valid supported).bind fun _ _ => trivial

/-! ## Loaded sequences -/

/-- A sequence that nothing but arithmetic can stop, whatever it is asked for. -/
structure RunsSafely (steps : List (Step α)) : Prop where
  evaluates : ∀ (base : α) (percentages : Keyed String α) (sequence : String),
    Ends (fun e => e.results.length = steps.length ∧ ∀ x ∈ e.results, Arithmetic.isFinite x = true)
      (NumericFailure α sequence) (evaluate steps base (.ofTable percentages) sequence)
  degree : ∃ invariant, isScaleInvariant steps = .ok invariant
  coefficient : ∀ (percentages : Keyed String α) (sequence : String),
    Ends (fun _ => True) (NumericFailure α sequence)
      (coefficient steps (.ofTable percentages) sequence).result

theorem runsSafely_of_valid {steps : List (Step α)} (valid : Valid steps)
    (supported : ∀ step ∈ steps, step.Supported) : RunsSafely steps where
  evaluates base percentages sequence :=
    evaluate_ends base sequence (Rates.ofTable_total percentages) valid supported
  degree := isScaleInvariant_ok valid
  coefficient percentages _ := coefficient_ends (Rates.ofTable_total percentages) valid supported

/-- A sequence that the loader accepts runs safely, as it stands and without the growth of any
item type. -/
theorem loaded_runs_safely {raw : Json} {name : String} {steps : List (Step α)}
    (loaded : sequenceOfRaw raw name = .ok steps) (itemType : String) :
    RunsSafely steps ∧ RunsSafely (withoutGrowth steps itemType) := by
  have valid : Valid steps := valid_of_sequenceOfRaw loaded
  have supported : ∀ step ∈ steps, step.Supported := supported_of_sequenceOfRaw loaded
  exact ⟨runsSafely_of_valid valid supported,
    runsSafely_of_valid (valid_withoutGrowth valid itemType)
      (supported_withoutGrowth supported itemType)⟩

/-- The last step compares the growth step, which is dropped, with the step before it. -/
def growthBetween : List (Step Float) :=
  [⟨-1, [⟨.multiply, .rate "profit_subcontract" .addOne⟩], .null⟩,
    ⟨0, [⟨.multiply, .rate "subcontract_works_cost_growth" .addOne⟩], .null⟩,
    ⟨1, [⟨.divide, .step 0⟩, ⟨.add, .number 1.5⟩], .null⟩]

theorem loaded_runs_safely_growthBetween :
    sequenceOfRaw (.array (growthBetween.map Step.toRaw)) "суб-раб" = .ok growthBetween ∧
      RunsSafely growthBetween ∧ RunsSafely (withoutGrowth growthBetween "суб-раб") := by
  have loaded :
      sequenceOfRaw (.array (growthBetween.map Step.toRaw)) "суб-раб" = .ok growthBetween := rfl
  exact ⟨loaded, loaded_runs_safely loaded "суб-раб"⟩

end Markup
end TenderPricing
