import TenderPricing.Proofs.Markup.KeptSteps
import TenderPricing.Proofs.Markup.Safety
/-!
Configuration errors that the check leaves to the run.

The check of a sequence looks at references, actions and the number of operations, not at the kinds
of operands.  `valid_configError_iff` says what follows: the run of a valid sequence has one error
left that is not numeric, and has it exactly where it comes to an operand of an unsupported kind.
-/
namespace TenderPricing
namespace Markup

variable {α : Type}

/-- The error of a step with an operand of an unsupported kind. -/
def unsupportedAt (sequence : String) (position : Int) : EvaluationError :=
  .config ⟨sequence, some position, .unsupportedOperand⟩

variable [Arithmetic α]

/-- A step that can be applied up to an operand of an unsupported kind. -/
inductive Step.ComesToUnsupported (base : α) (rates : Rates α) (sequence : String)
    (results : List α) (step : Step α) : Prop
  | intro {start value : α} {action : Action} {front back : List (Operation α)}
    (starts : reach? base results step.baseIndex = some start)
    (operations : step.operations = front ++ ⟨action, .unsupported⟩ :: back)
    (applied : applyAll base results rates sequence results.length start front = .ok value)

/-- A sequence that can be run up to the step at a position, and in it up to an operand of an
unsupported kind. -/
inductive ComesToUnsupported (steps : List (Step α)) (base : α) (rates : Rates α)
    (sequence : String) (position : Nat) : Prop
  | intro {step : Step α} {done : List (StepDetail α)} (at_ : steps[position]? = some step)
    (before : runFrom base rates sequence [] (steps.take position) = .ok done)
    (comes : step.ComesToUnsupported base rates sequence (done.map (·.result)))

/-! ## Runs in two parts -/

section Append

variable {base : α} {rates : Rates α} {sequence : String} {results : List α}

theorem applyAll_append {position : Int} {front rest : List (Operation α)} :
    ∀ value : α, applyAll base results rates sequence position value (front ++ rest) =
      applyAll base results rates sequence position value front >>= fun next =>
        applyAll base results rates sequence position next rest := by
  induction front with
  | nil => exact fun _ => rfl
  | cons op front ih =>
    intro value
    rw [List.cons_append, applyAll, applyAll]
    cases op.operand.resolve base results rates sequence position with
    | error e => rfl
    | ok rhs =>
      rw [ok_bind, ok_bind]
      cases op.action.apply value rhs with
      | ok next => exact ih next
      | error fault => cases fault <;> rfl

theorem runFrom_append {front rest : List (Step α)} :
    ∀ done : List (StepDetail α), runFrom base rates sequence done (front ++ rest) =
      runFrom base rates sequence done front >>= fun later =>
        runFrom base rates sequence later rest := by
  induction front with
  | nil => exact fun _ => rfl
  | cons step front ih =>
    intro done
    rw [List.cons_append, runFrom, runFrom]
    cases step.run base rates sequence (done.map (·.result)) with
    | error e => rfl
    | ok detail => exact ih (done ++ [detail])

end Append

/-! ## One step -/

section Step

variable {base : α} {rates : Rates α} {sequence : String} {results : List α}

/-- Operations that fit their step apply, or stop at a numeric failure or at the first operand of an
unsupported kind. -/
theorem applyAll_fails (total : rates.Total) (position : Int) {operations : List (Operation α)} :
    ∀ value : α, (∀ op ∈ operations, op.FitsAt results.length) →
      Ends (fun _ => True)
        (fun e => NumericFailure α sequence e ∨
          e = unsupportedAt sequence position ∧ ∃ front action back next,
            operations = front ++ ⟨action, .unsupported⟩ :: back ∧
            applyAll base results rates sequence position value front = .ok next)
        (applyAll base results rates sequence position value operations) := by
  induction operations with
  | nil => intros; exact trivial
  | cons op rest ih =>
    intro value fits
    rw [List.forall_mem_cons] at fits
    obtain ⟨action, operand⟩ := op
    by_cases hkind : operand = .unsupported
    · subst hkind
      exact .inr ⟨rfl, [], action, rest, value, rfl, rfl⟩
    · obtain ⟨rhs, hrhs⟩ :=
        Operand.resolve_ok base sequence total fits.1.refers hkind position
      rw [applyAll, hrhs, ok_bind]
      cases hresult : action.apply value rhs with
      | ok next =>
        refine (ih next fits.2).mono (fun _ => id) fun e he => ?_
        rcases he with hnumeric | ⟨heq, front, action', back, last, hrest, happlied⟩
        · exact .inl hnumeric
        · refine .inr ⟨heq, ⟨action, operand⟩ :: front, action', back, last, ?_, ?_⟩
          · rw [hrest, List.cons_append]
          · rw [applyAll, hrhs, ok_bind, hresult]
            exact happlied
      | error fault =>
        have hfault := (Action.apply_ends fits.1.known value rhs).error hresult
        subst hfault
        exact .inl (.divisionByZero position)

theorem Step.run_fails {step : Step α} (total : rates.Total) (fits : step.FitsAt results.length) :
    Ends (fun _ => True)
      (fun e => NumericFailure α sequence e ∨ e = unsupportedAt sequence results.length ∧
        step.ComesToUnsupported base rates sequence results)
      (step.run base rates sequence results) := by
  obtain ⟨start, hstart⟩ := reach?_of_mayRefer base fits.base
  simp only [Step.run, reach, hstart, ok_bind]
  have happly : Ends _ _
      (applyAll base results rates sequence results.length start step.operations) :=
    applyAll_fails total results.length start fits.operations
  refine (happly.mono (fun _ => id) fun e he => ?_).bind fun value _ => ?_
  · rcases he with hnumeric | ⟨heq, front, action, back, next, hoperations, happlied⟩
    · exact .inl hnumeric
    · exact .inr ⟨heq, .intro hstart hoperations happlied⟩
  · by_cases hfinite : Arithmetic.isFinite value = true
    · rw [if_pos hfinite]
      exact trivial
    · rw [if_neg hfinite]
      exact .inl (.nonFinite _ value (by simpa using hfinite))

theorem Step.run_of_comesToUnsupported {step : Step α}
    (comes : step.ComesToUnsupported base rates sequence results) :
    step.run base rates sequence results = .error (unsupportedAt sequence results.length) := by
  obtain ⟨starts, operations, applied⟩ := comes
  rw [Step.run, reach_eq_ok_iff.mpr starts, ok_bind, operations, applyAll_append, applied, ok_bind]
  rfl

end Step

/-! ## The whole run -/

section Run

variable {steps : List (Step α)} {base : α} {rates : Rates α} {sequence : String}

theorem length_of_runFrom {details : List (StepDetail α)}
    (h : runFrom base rates sequence [] steps = .ok details) : details.length = steps.length := by
  rw [← runCopying_none] at h
  exact length_of_runCopying h

theorem evaluate_of_comesToUnsupported {position : Nat}
    (comes : ComesToUnsupported steps base rates sequence position) :
    evaluate steps base rates sequence = .error (unsupportedAt sequence position) := by
  obtain ⟨hget, before, comes⟩ := comes
  obtain ⟨hlt, hstep⟩ := List.getElem?_eq_some_iff.mp hget
  have hplace := length_of_runFrom before
  rw [List.length_take, Nat.min_eq_left (Nat.le_of_lt hlt)] at hplace
  have hrun := Step.run_of_comesToUnsupported comes
  rw [List.length_map, hplace] at hrun
  rw [evaluate, ← List.take_append_drop position steps, runFrom_append, before, ok_bind,
    List.drop_eq_getElem_cons hlt, hstep, runFrom, hrun]
  rfl

/-- A valid sequence that fails has a numeric failure or comes to an operand of an unsupported
kind. -/
theorem evaluate_fails (valid : Valid steps) (total : rates.Total) {e : EvaluationError}
    (failed : evaluate steps base rates sequence = .error e) :
    NumericFailure α sequence e ∨ ∃ position : Nat, e = unsupportedAt sequence position ∧
      ComesToUnsupported steps base rates sequence position := by
  rw [evaluate, bind_eq_error_iff] at failed
  rcases failed with hrun | ⟨details, -, hpure⟩
  · rw [← runCopying_none] at hrun
    obtain ⟨position, step, done, hget, -, before, hstep, -⟩ := runCopying_stops valid hrun
    rw [runCopying_none] at before
    have hplace := length_of_runFrom before
    have hlt := (List.getElem?_eq_some_iff.mp hget).1
    rw [List.length_take, Nat.min_eq_left (Nat.le_of_lt hlt)] at hplace
    have hfits : step.FitsAt (done.map (·.result)).length := by
      rw [List.length_map, hplace]
      exact valid.fitsAt hget
    rcases (Step.run_fails total hfits).error hstep with hnumeric | ⟨heq, comes⟩
    · exact .inl hnumeric
    · rw [List.length_map, hplace] at heq
      exact .inr ⟨position, heq, .intro hget before comes⟩
  · cases hpure

/-- The run of a valid sequence fails numerically or for an operand of an unsupported kind, and for
that exactly where the run comes to it; so a valid sequence without such operands has no
configuration error. -/
theorem valid_configError_iff (valid : Valid steps) (base : α) (percentages : Keyed String α)
    (sequence : String) :
    (∀ e, evaluate steps base (.ofTable percentages) sequence = .error e →
      NumericFailure α sequence e ∨ ∃ position : Nat, e = unsupportedAt sequence position) ∧
    (∀ position : Nat,
      evaluate steps base (.ofTable percentages) sequence =
          .error (unsupportedAt sequence position) ↔
        ComesToUnsupported steps base (.ofTable percentages) sequence position) ∧
    ((∀ step ∈ steps, step.Supported) →
      ∀ e, evaluate steps base (.ofTable percentages) sequence = .error e →
        NumericFailure α sequence e) := by
  have total := Rates.ofTable_total percentages
  refine ⟨fun e failed => ?_, fun position => ⟨fun failed => ?_, evaluate_of_comesToUnsupported⟩,
    fun supported e failed => ?_⟩
  · rcases evaluate_fails valid total failed with hnumeric | ⟨position, heq, -⟩
    · exact .inl hnumeric
    · exact .inr ⟨position, heq⟩
  · rcases evaluate_fails valid total failed with hnumeric | ⟨found, heq, comes⟩
    · cases hnumeric
    · have hsame : position = found := by
        simpa [unsupportedAt] using heq
      rwa [hsame]
  · exact (evaluate_ends base sequence total valid supported).error failed

end Run

/-- The base value over a percentage, and a second step that halves it and then adds something of an
unsupported kind. -/
def unknownAddend : List (Step Float) :=
  [⟨-1, [⟨.divide, .rate "contingency_costs" .direct⟩], .null⟩,
    ⟨0, [⟨.divide, .number 2.0⟩, ⟨.add, .unsupported⟩], .null⟩]

/-- The run comes to the addend, unless the percentage is zero and the first step fails. -/
theorem valid_configError_iff_unknownAddend :
    Valid unknownAddend ∧
      ComesToUnsupported unknownAddend 100.0 (.ofTable [("contingency_costs", 50.0)]) "раб" 1 ∧
      ¬ ComesToUnsupported unknownAddend 100.0 (.ofTable []) "раб" 1 := by
  have valid : Valid unknownAddend := rfl
  have reached : evaluate unknownAddend 100.0 (.ofTable [("contingency_costs", 50.0)]) "раб" =
      .error (unsupportedAt "раб" 1) := rfl
  have divides : evaluate unknownAddend 100.0 (.ofTable []) "раб" =
      .error (.divisionByZero "раб" 0) := rfl
  refine ⟨valid, ((valid_configError_iff valid _ _ _).2.1 1).mp reached, fun comes => ?_⟩
  have hfailed := ((valid_configError_iff valid _ _ _).2.1 1).mpr comes
  rw [divides] at hfailed
  cases hfailed

/-- A step that multiplies by something of an unsupported kind passes the check, and its run ends
with a configuration error. -/
theorem unknownFactor_passes_check :
    Valid ([⟨-1, [⟨.multiply, .unsupported⟩], .null⟩] : List (Step Float)) ∧
      evaluate ([⟨-1, [⟨.multiply, .unsupported⟩], .null⟩] : List (Step Float)) 100.0
        (.ofTable []) "sequence" = .error (.config ⟨"sequence", some 0, .unsupportedOperand⟩) :=
  ⟨rfl, rfl⟩

end Markup
end TenderPricing
