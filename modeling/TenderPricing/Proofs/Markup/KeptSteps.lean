import TenderPricing.Proofs.Markup.Exclusion
/-!
The shortened sequence, step by step.

Leaving growth out runs the kept steps as the reference run does, in which growth steps copy their
start.  `withoutGrowth_simulates` compares the two runs at every kept position, and where they
stop.
-/
namespace TenderPricing
namespace Markup

variable {α : Type}

/-! ## What stands at the kept positions -/

/-- What a list holds at the positions of the unmarked steps, in order. -/
def keptOf {β : Type} (copies : Step α → Bool) (steps : List (Step α)) (values : List β) : List β :=
  ((steps.zip values).filter fun p => !copies p.1).map (·.2)

theorem keptOf_none {β : Type} {steps : List (Step α)} {values : List β}
    (hlength : steps.length = values.length) : keptOf (fun _ => false) steps values = values := by
  have hall : (steps.zip values).filter (fun _ => !false) = steps.zip values :=
    List.filter_eq_self.mpr fun _ _ => rfl
  rw [keptOf, hall, List.map_snd_zip (Nat.le_of_eq hlength.symm)]

/-- A field of the kept details, as long as it is not the number of the step. -/
theorem map_keptDetails {β : Type} (copies : Step α → Bool) (steps : List (Step α))
    (details : List (StepDetail α)) {f : StepDetail α → β}
    (unnumbered : ∀ (position : Nat) (detail : StepDetail α),
      f (detail.renumber position) = f detail) :
    (keptDetails copies steps details).map f = keptOf copies steps (details.map f) := by
  have hrenumber : ∀ kept : List (StepDetail α),
      (kept.mapIdx StepDetail.renumber).map f = kept.map f := by
    intro kept
    exact List.ext_getElem (by simp) fun i _ _ => by simp [unnumbered]
  rw [keptDetails, hrenumber, keptOf, List.zip_map_right, List.filter_map, List.map_map,
    List.map_map]
  rfl

theorem keptBefore_none {steps : List (Step α)} {position : Nat} (h : position ≤ steps.length) :
    keptBefore (fun _ => false) steps position = position := by
  have hall : (steps.take position).filter (fun _ => !false) = steps.take position :=
    List.filter_eq_self.mpr fun _ _ => rfl
  rw [keptBefore, Int.toNat_natCast, hall, List.length_take, Nat.min_eq_left h]

/-! ## The step that a failure names -/

/-- The step that a failure names; percentages that are no numbers fail without one. -/
def EvaluationError.step? : EvaluationError → Option Int
  | config error => error.step
  | divisionByZero _ step => some step
  | nonFinite _ step => some step
  | _ => none

/-- A failure that names no other step than the one at a position. -/
def EvaluationError.OnlyAt (position : Int) (e : EvaluationError) : Prop :=
  ∀ step, e.step? = some step → step = position

/-- Where a failure is moved depends only on where the place is moved that it names. -/
theorem EvaluationError.relocate_of_onlyAt {position moved : Int} {e : EvaluationError}
    (h : e.OnlyAt position) {place : Int → Int} (same : place position = moved) :
    e.relocate place = e.relocate fun _ => moved := by
  cases e with
  | config error =>
    obtain ⟨sequence, step, fault⟩ := error
    cases step with
    | none => rfl
    | some step =>
      have hstep : step = position := h step rfl
      simp only [relocate, Option.map_some, hstep, same]
  | divisionByZero sequence step =>
    have hstep : step = position := h step rfl
    rw [relocate, relocate, hstep, same]
  | nonFinite sequence step =>
    have hstep : step = position := h step rfl
    rw [relocate, relocate, hstep, same]
  | _ => rfl

theorem EvaluationError.relocate_self {position : Int} {e : EvaluationError}
    (h : e.OnlyAt position) : (e.relocate fun _ => position) = e := by
  have hidentity : e.relocate (fun step => step) = e := by
    cases e with
    | config error =>
      obtain ⟨sequence, step, fault⟩ := error
      cases step <;> rfl
    | _ => rfl
  exact (relocate_of_onlyAt h rfl).symm.trans hidentity

section Failures

variable {base : α} {rates : Rates α} {sequence : String} {results : List α}

theorem reach_onlyAt (position index : Int) :
    Ends (fun _ => True) (EvaluationError.OnlyAt position)
      (reach base results sequence position index) := by
  unfold reach
  cases reach? base results index with
  | some value => exact trivial
  | none =>
    intro step hstep
    exact (Option.some.inj hstep).symm

variable [Arithmetic α]

theorem Operand.resolve_onlyAt (position : Int) (operand : Operand α) :
    Ends (fun _ => True) (EvaluationError.OnlyAt position)
      (operand.resolve base results rates sequence position) := by
  cases operand with
  | rate key form =>
    simp only [Operand.resolve]
    cases rates key with
    | ok percent => exact trivial
    | error fault =>
      intro step hstep
      cases hstep
  | step index => exact reach_onlyAt position index
  | number value => exact trivial
  | unsupported =>
    intro step hstep
    exact (Option.some.inj hstep).symm

theorem applyAll_onlyAt (position : Int) {operations : List (Operation α)} :
    ∀ (running : α), Ends (fun _ => True) (EvaluationError.OnlyAt position)
      (applyAll base results rates sequence position running operations) := by
  induction operations with
  | nil => intro running; exact trivial
  | cons op rest ih =>
    intro running
    rw [applyAll]
    refine (Operand.resolve_onlyAt position op.operand).bind fun rhs _ => ?_
    cases op.action.apply running rhs with
    | ok next => exact ih next
    | error fault =>
      cases fault with
      | divisionByZero =>
        intro step hstep
        exact (Option.some.inj hstep).symm
      | unknownAction got =>
        intro step hstep
        cases hstep

/-- A step that fails names itself, if it names a step. -/
theorem Step.run_onlyAt (step : Step α) :
    Ends (fun _ => True) (EvaluationError.OnlyAt results.length)
      (step.run base rates sequence results) := by
  rw [Step.run]
  refine (reach_onlyAt _ _).bind fun start _ => (applyAll_onlyAt _ start).bind fun value _ => ?_
  by_cases hfinite : Arithmetic.isFinite value = true
  · rw [if_pos hfinite]
    exact trivial
  · rw [if_neg hfinite]
    intro step hstep
    exact (Option.some.inj hstep).symm

end Failures

/-! ## Where the reference run stops -/

section Stop

variable [Arithmetic α] {copies : Step α → Bool} {base : α} {rates : Rates α} {sequence : String}

/-- A reference run that fails has run the steps before some unmarked step, and that step fails. -/
theorem runCopying_error {steps : List (Step α)} :
    ∀ {done : List (StepDetail α)} {e : EvaluationError}, problemsFrom done.length steps = [] →
      runCopying copies base rates sequence done steps = .error e →
        ∃ (position : Nat) (step : Step α) (details : List (StepDetail α)),
          steps[position]? = some step ∧ copies step = false ∧
          runCopying copies base rates sequence done (steps.take position) = .ok details ∧
          step.run base rates sequence (details.map (·.result)) = .error e := by
  induction steps with
  | nil => intro done e _ h; cases h
  | cons step rest ih =>
    intro done e hfit h
    rw [problemsFrom_cons_eq_nil_iff] at hfit
    rw [runCopying] at h
    cases hstep : step.runOrCopy copies base rates sequence (done.map (·.result)) with
    | ok detail =>
      rw [hstep, ok_bind] at h
      have hrest : problemsFrom (done ++ [detail]).length rest = [] := by
        rw [List.length_append, List.length_singleton]
        exact hfit.2
      obtain ⟨position, next, details, hget, hnext, hbefore, hfails⟩ := ih hrest h
      refine ⟨position + 1, next, details, hget, hnext, ?_, hfails⟩
      rw [List.take_succ_cons, runCopying, hstep, ok_bind]
      exact hbefore
    | error failure =>
      rw [hstep] at h
      have hsame : failure = e := Except.error.inj h
      subst hsame
      rw [Step.runOrCopy] at hstep
      by_cases hcopies : copies step = true
      · -- A copy reads one reference, and references in a valid sequence reach something.
        have permitted : mayRefer (done.map (·.result)).length step.baseIndex = true := by
          rw [List.length_map]
          exact hfit.1.base
        obtain ⟨start, -, hcopy⟩ := Step.copy_ok sequence permitted
        rw [if_pos hcopies, hcopy] at hstep
        cases hstep
      · rw [if_neg hcopies] at hstep
        exact ⟨0, step, done, rfl, by simpa using hcopies, rfl, hstep⟩

/-- A whole reference run names the step where it stops. -/
theorem runCopying_stops {steps : List (Step α)} (valid : Valid steps) {e : EvaluationError}
    (h : runCopying copies base rates sequence [] steps = .error e) :
    ∃ (position : Nat) (step : Step α) (done : List (StepDetail α)),
      steps[position]? = some step ∧ copies step = false ∧
      runCopying copies base rates sequence [] (steps.take position) = .ok done ∧
      step.run base rates sequence (done.map (·.result)) = .error e ∧ e.OnlyAt position := by
  have hfit : problemsFrom ([] : List (StepDetail α)).length steps = [] := valid
  obtain ⟨position, step, done, hget, hunmarked, hbefore, hfails⟩ := runCopying_error hfit h
  have hlt : position < steps.length := (List.getElem?_eq_some_iff.mp hget).1
  have hdone : (done.map (·.result)).length = position := by
    rw [List.length_map, length_of_runCopying hbefore, List.length_take]
    omega
  have honly := (Step.run_onlyAt step).error hfails
  rw [hdone] at honly
  exact ⟨position, step, done, hget, hunmarked, hbefore, hfails, honly⟩

end Stop

/-! ## Both runs side by side -/

theorem usesGrowth_of_some {itemType key : String} (h : growthParameter? itemType = some key) :
    usesGrowth (α := α) itemType = (·.usesKey key) := by
  funext step
  simp [usesGrowth, h]

theorem usesGrowth_of_none {itemType : String} (h : growthParameter? itemType = none) :
    usesGrowth (α := α) itemType = fun _ => false := by
  funext step
  simp [usesGrowth, h]

section Simulation

variable [Arithmetic α] {steps : List (Step α)}

theorem Step.runOrCopy_stepIndex {copies : Step α → Bool} {base : α} {rates : Rates α}
    {sequence : String} {results : List α} {step : Step α} {detail : StepDetail α}
    (h : step.runOrCopy copies base rates sequence results = .ok detail) :
    detail.stepIndex = results.length := by
  unfold Step.runOrCopy at h
  by_cases hcopies : copies step = true
  · rw [if_pos hcopies, Step.copy, bind_eq_ok_iff] at h
    obtain ⟨start, -, h⟩ := h
    rw [pure_eq_ok_iff] at h
    rw [← h]
  · rw [if_neg hcopies] at h
    obtain ⟨start, value, -, -, -, rfl⟩ := Step.run_ok h
    rfl

/-- A finished run numbers its details in order. -/
theorem keptDetails_none {copies : Step α → Bool} {base : α} {rates : Rates α} {sequence : String}
    {details : List (StepDetail α)}
    (h : runCopying copies base rates sequence [] steps = .ok details) :
    keptDetails (fun _ => false) steps details = details := by
  have hlength := length_of_runCopying h
  obtain ⟨-, -, hspec⟩ := runCopying_spec h
  have hkept : ((steps.zip details).filter fun _ => !false).map (·.2) = details :=
    keptOf_none hlength.symm
  rw [keptDetails, hkept]
  refine List.ext_getElem (List.length_mapIdx ..) fun i hi _ => ?_
  have hlt : i < steps.length := by rwa [List.length_mapIdx, hlength] at hi
  obtain ⟨detail, hdetail, hran⟩ := hspec i steps[i] (List.getElem?_eq_getElem hlt)
  rw [List.length_nil, Nat.zero_add] at hdetail hran
  have hnumber : detail.stepIndex = i := by
    rw [Step.runOrCopy_stepIndex hran, List.length_map, List.length_take, hlength]
    omega
  rw [List.getElem_mapIdx, (List.getElem?_eq_some_iff.mp hdetail).2, StepDetail.renumber, ← hnumber]

/-- Where all steps are kept, the kept part of a run is the run. -/
theorem evaluate_none (valid : Valid steps) (base : α) (rates : Rates α) (sequence : String) :
    evaluate steps base rates sequence =
      ((evaluateCopying (fun _ => false) base rates sequence steps).map
        (Evaluation.keep (fun _ => false) steps)).mapError
          (·.relocate (keptBefore (fun _ => false) steps)) := by
  rw [evaluate, evaluateCopying, ← runCopying_none]
  cases hrun : runCopying (fun _ => false) base rates sequence [] steps with
  | ok details =>
    have hkept := keptDetails_none hrun
    simp only [ok_bind, pure, Except.pure, Except.map, Except.mapError, Evaluation.keep, hkept]
  | error e =>
    obtain ⟨position, step, -, hget, -, -, -, honly⟩ := runCopying_stops valid hrun
    have hlt : position < steps.length := (List.getElem?_eq_some_iff.mp hget).1
    have hplace := EvaluationError.relocate_of_onlyAt honly (keptBefore_none (Nat.le_of_lt hlt))
    rw [EvaluationError.relocate_self honly] at hplace
    exact congrArg Except.error hplace.symm

/-- The run without growth is the kept part of the reference run, also where the item type has no
growth and all steps are kept. -/
theorem evaluate_withoutGrowth (valid : Valid steps) (itemType : String) (base : α)
    (rates : Rates α) (sequence : String) :
    evaluate (withoutGrowth steps itemType) base rates sequence =
      ((evaluateCopying (usesGrowth itemType) base rates sequence steps).map
        (Evaluation.keep (usesGrowth itemType) steps)).mapError
          (·.relocate (keptBefore (usesGrowth itemType) steps)) := by
  cases hkey : growthParameter? itemType with
  | none =>
    rw [withoutGrowth, hkey, usesGrowth_of_none hkey]
    exact evaluate_none valid base rates sequence
  | some key =>
    rw [withoutGrowth, hkey, usesGrowth_of_some hkey]
    exact evaluate_dropSteps valid key

/-- The run without growth and the reference run side by side.  Where the reference run ends well,
the other has its results and start values at the kept positions, in order; where it stops, it
stops at a kept step, and the other stops there too, for the same reason and at the new index. -/
theorem withoutGrowth_simulates (valid : Valid steps) (itemType : String) (base : α)
    (rates : Rates α) (sequence : String) :
    (∀ copied, evaluateCopying (usesGrowth itemType) base rates sequence steps = .ok copied →
      copied.details.length = steps.length ∧
      ∃ filtered, evaluate (withoutGrowth steps itemType) base rates sequence = .ok filtered ∧
        filtered.results = keptOf (usesGrowth itemType) steps copied.results ∧
        filtered.details.map (·.baseValue) =
          keptOf (usesGrowth itemType) steps (copied.details.map (·.baseValue))) ∧
    ∀ e, evaluateCopying (usesGrowth itemType) base rates sequence steps = .error e →
      ∃ (position : Nat) (step : Step α) (done : List (StepDetail α)),
        steps[position]? = some step ∧ usesGrowth itemType step = false ∧
        runCopying (usesGrowth itemType) base rates sequence [] (steps.take position) = .ok done ∧
        step.run base rates sequence (done.map (·.result)) = .error e ∧ e.OnlyAt position ∧
        evaluate (withoutGrowth steps itemType) base rates sequence =
          .error (e.relocate fun _ => keptBefore (usesGrowth itemType) steps position) := by
  have hrun := evaluate_withoutGrowth valid itemType base rates sequence
  refine ⟨fun copied hcopied => ?_, fun e he => ?_⟩
  · rw [hcopied] at hrun
    rw [evaluateCopying, bind_eq_ok_iff] at hcopied
    obtain ⟨details, hdetails, hcopied⟩ := hcopied
    rw [pure_eq_ok_iff] at hcopied
    subst hcopied
    refine ⟨length_of_runCopying hdetails, _, hrun, ?_, ?_⟩
    · exact map_keptDetails _ steps details fun _ _ => rfl
    · exact map_keptDetails _ steps details fun _ _ => rfl
  · rw [he] at hrun
    have hstop : runCopying (usesGrowth itemType) base rates sequence [] steps = .error e := by
      cases h : runCopying (usesGrowth itemType) base rates sequence [] steps with
      | ok details =>
        rw [evaluateCopying, h] at he
        cases he
      | error failure =>
        rw [evaluateCopying, h] at he
        rw [show failure = e from Except.error.inj he]
    obtain ⟨position, step, done, hget, hkept, hbefore, hfails, honly⟩ :=
      runCopying_stops valid hstop
    refine ⟨position, step, done, hget, hkept, hbefore, hfails, honly, ?_⟩
    rw [hrun]
    exact congrArg Except.error (EvaluationError.relocate_of_onlyAt honly rfl)

end Simulation

/-- Profit, growth of it and growth of that, and at last their ratio to the profit step. -/
def growthTwice : List (Step Float) :=
  [⟨-1, [⟨.multiply, .rate "profit_subcontract" .addOne⟩], .null⟩,
    ⟨0, [⟨.multiply, .rate "subcontract_works_cost_growth" .addOne⟩], .null⟩,
    ⟨1, [⟨.multiply, .rate "subcontract_works_cost_growth" .addOne⟩], .null⟩,
    ⟨2, [⟨.divide, .step 0⟩, ⟨.add, .step (-1)⟩], .null⟩]

/-- With a profit of minus one hundred percent the last step divides by zero, at index three of the
reference run and at index one without growth. -/
theorem withoutGrowth_simulates_growthTwice :
    Valid growthTwice ∧
      (∃ copied filtered,
        evaluateCopying (usesGrowth "суб-раб") 100.0 (.ofTable [("profit_subcontract", 16.0)])
          "суб-раб" growthTwice = .ok copied ∧
        evaluate (withoutGrowth growthTwice "суб-раб") 100.0
          (.ofTable [("profit_subcontract", 16.0)]) "суб-раб" = .ok filtered ∧
        filtered.results = keptOf (usesGrowth "суб-раб") growthTwice copied.results) ∧
      evaluateCopying (usesGrowth "суб-раб") 100.0 (.ofTable [("profit_subcontract", -100.0)])
        "суб-раб" growthTwice = .error (.divisionByZero "суб-раб" 3) ∧
      evaluate (withoutGrowth growthTwice "суб-раб") 100.0
        (.ofTable [("profit_subcontract", -100.0)]) "суб-раб" =
          .error (.divisionByZero "суб-раб" 1) := by
  have valid : Valid growthTwice := rfl
  have copied : ∃ copied, evaluateCopying (usesGrowth "суб-раб") 100.0
      (.ofTable [("profit_subcontract", 16.0)]) "суб-раб" growthTwice = .ok copied := ⟨_, rfl⟩
  have stopped : evaluateCopying (usesGrowth "суб-раб") 100.0
      (.ofTable [("profit_subcontract", -100.0)]) "суб-раб" growthTwice =
        .error (.divisionByZero "суб-раб" 3) := rfl
  obtain ⟨copied, hcopied⟩ := copied
  obtain ⟨-, filtered, hfiltered, hresults, -⟩ :=
    (withoutGrowth_simulates valid "суб-раб" _ _ _).1 copied hcopied
  obtain ⟨position, -, -, -, -, -, -, honly, hstopped⟩ :=
    (withoutGrowth_simulates valid "суб-раб" _ _ _).2 _ stopped
  have hposition : (3 : Int) = position := honly 3 rfl
  rw [← hposition] at hstopped
  exact ⟨valid, ⟨copied, filtered, hcopied, hfiltered, hresults⟩, stopped, hstopped⟩

end Markup
end TenderPricing
