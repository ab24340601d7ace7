import Mathlib.Data.List.DropRight
import TenderPricing.Proofs.Markup.Redirection
/-!
Dropping steps against letting their values pass through.

The reference run keeps every step of a sequence, but steps marked by `copies` hand on the value
that they start from.  `evaluate_dropSteps` says that the sequence without the marked steps does
what the reference run does at the steps that are kept: same values, same failures, renumbered.
-/
namespace TenderPricing
namespace Markup

variable {α : Type}

/-! ## The reference run -/

/-- A step that hands on the value that it starts from. -/
def Step.copy (base : α) (sequence : String) (results : List α) (step : Step α) :
    Except EvaluationError (StepDetail α) := do
  let start ← reach base results sequence results.length step.baseIndex
  return ⟨results.length, step.name, step.parameterKeys, start, start⟩

theorem Step.copy_ok {base : α} (sequence : String) {results : List α} {step : Step α}
    (permitted : mayRefer results.length step.baseIndex = true) :
    ∃ start, reach? base results step.baseIndex = some start ∧
      step.copy base sequence results =
        .ok ⟨results.length, step.name, step.parameterKeys, start, start⟩ := by
  obtain ⟨start, hstart⟩ := reach?_of_mayRefer base permitted
  exact ⟨start, hstart, by simp [Step.copy, reach, hstart, ok_bind, pure, Except.pure]⟩

section Reference

variable [Arithmetic α] (copies : Step α → Bool) (base : α) (rates : Rates α) (sequence : String)

def Step.runOrCopy (results : List α) (step : Step α) : Except EvaluationError (StepDetail α) :=
  if copies step then step.copy base sequence results
  else step.run base rates sequence results

/-- Runs the steps that follow the ones already done; marked steps copy. -/
def runCopying : List (StepDetail α) → List (Step α) → Except EvaluationError (List (StepDetail α))
  | done, [] => .ok done
  | done, step :: rest => do
    let detail ← step.runOrCopy copies base rates sequence (done.map (·.result))
    runCopying (done ++ [detail]) rest

/-- Evaluates a sequence in which marked steps copy. -/
def evaluateCopying (steps : List (Step α)) : Except EvaluationError (Evaluation α) := do
  let details ← runCopying copies base rates sequence [] steps
  return ⟨base, finalValue base details, details⟩

end Reference

/-! ## What a finished run consists of -/

section Run

variable [Arithmetic α] {copies : Step α → Bool} {base : α} {rates : Rates α} {sequence : String}

/-- A finished run has kept what was done before, and each further detail is the outcome of its
step over the results before it. -/
theorem runCopying_spec {steps : List (Step α)} :
    ∀ {done details : List (StepDetail α)},
      runCopying copies base rates sequence done steps = .ok details →
        details.length = done.length + steps.length ∧ details.take done.length = done ∧
          ∀ (i : Nat) (step : Step α), steps[i]? = some step →
            ∃ detail, details[done.length + i]? = some detail ∧
              step.runOrCopy copies base rates sequence
                ((details.take (done.length + i)).map (·.result)) = .ok detail := by
  induction steps with
  | nil =>
    intro done details h
    rw [runCopying, Except.ok.injEq] at h
    subst h
    simp
  | cons first rest ih =>
    intro done details h
    rw [runCopying, bind_eq_ok_iff] at h
    obtain ⟨detail, hdetail, h⟩ := h
    obtain ⟨hlength, htake, hrest⟩ := ih h
    rw [List.length_append, List.length_singleton] at hlength htake
    have hdone : details.take done.length = done := by
      have h := congrArg (List.take done.length) htake
      rw [List.take_take, List.take_left] at h
      rwa [Nat.min_eq_left (by omega)] at h
    refine ⟨by rw [hlength, List.length_cons]; omega, hdone, ?_⟩
    intro i step hget
    cases i with
    | zero =>
      rw [List.getElem?_cons_zero, Option.some.injEq] at hget
      subst hget
      refine ⟨detail, ?_, ?_⟩
      · rw [Nat.add_zero, ← List.getElem?_take_of_lt (j := done.length + 1) (by omega), htake]
        simp
      · rw [Nat.add_zero, hdone]
        exact hdetail
    | succ i =>
      rw [List.getElem?_cons_succ] at hget
      have hi := hrest i step hget
      rw [List.length_append, List.length_singleton, Nat.add_assoc, Nat.add_comm 1 i] at hi
      exact hi

theorem length_of_runCopying {steps : List (Step α)} {details : List (StepDetail α)}
    (h : runCopying copies base rates sequence [] steps = .ok details) :
    details.length = steps.length := by
  have hlength := (runCopying_spec h).1
  rwa [List.length_nil, Nat.zero_add] at hlength

theorem runCopying_none {steps : List (Step α)} :
    ∀ {done : List (StepDetail α)},
      runCopying (fun _ => false) base rates sequence done steps =
        runFrom base rates sequence done steps := by
  induction steps with
  | nil => intro done; rfl
  | cons step rest ih =>
    intro done
    rw [runCopying, runFrom, Step.runOrCopy, if_neg Bool.false_ne_true]
    refine congrArg _ (funext fun detail => ?_)
    exact ih

end Run

/-! ## Renumbering -/

/-- The same failure at another position. -/
def EvaluationError.relocate (place : Int → Int) : EvaluationError → EvaluationError
  | config e => config { e with step := e.step.map place }
  | divisionByZero sequence step => divisionByZero sequence (place step)
  | nonFinite sequence step => nonFinite sequence (place step)
  | e => e

def StepDetail.renumber (position : Nat) (d : StepDetail α) : StepDetail α :=
  { d with stepIndex := position }

/-- The details of the steps that are not marked, numbered anew. -/
def keptDetails (copies : Step α → Bool) (steps : List (Step α)) (details : List (StepDetail α)) :
    List (StepDetail α) :=
  (((steps.zip details).filter fun p => !copies p.1).map (·.2)).mapIdx StepDetail.renumber

/-- The number of unmarked steps before a position. -/
def keptBefore (copies : Step α → Bool) (steps : List (Step α)) (position : Int) : Int :=
  ((steps.take position.toNat).filter fun step => !copies step).length

theorem keptDetails_concat (copies : Step α → Bool) {steps : List (Step α)}
    {details : List (StepDetail α)} (hlength : steps.length = details.length) (step : Step α)
    (detail : StepDetail α) :
    keptDetails copies (steps ++ [step]) (details ++ [detail]) =
      if copies step then keptDetails copies steps details
      else keptDetails copies steps details ++
        [detail.renumber (keptDetails copies steps details).length] := by
  unfold keptDetails
  rw [List.zip_append hlength, List.filter_append, List.map_append]
  by_cases hcopies : copies step = true
  · rw [if_pos hcopies]
    simp [hcopies]
  · rw [if_neg hcopies]
    simp [hcopies, List.mapIdx_append]

theorem exists_concat_of_length {steps : List (Step α)} {step : Step α}
    {details : List (StepDetail α)} (hlength : (steps ++ [step]).length = details.length) :
    ∃ front last, details = front ++ [last] ∧ steps.length = front.length := by
  cases details using List.reverseRecOn with
  | nil => simp at hlength
  | append_singleton front last => exact ⟨front, last, rfl, by simpa using hlength⟩

theorem length_keptDetails {copies : Step α → Bool} {steps : List (Step α)} :
    ∀ {details : List (StepDetail α)}, steps.length = details.length →
      (keptDetails copies steps details).length =
        (steps.filter fun step => !copies step).length := by
  induction steps using List.reverseRecOn with
  | nil => intro details _; simp [keptDetails]
  | append_singleton steps step ih =>
    intro details hlength
    obtain ⟨front, last, rfl, hfront⟩ := exists_concat_of_length hlength
    rw [keptDetails_concat copies hfront, List.filter_append, List.length_append, ← ih hfront]
    by_cases hcopies : copies step = true
    · simp [hcopies]
    · simp [hcopies]

theorem keptBefore_append {copies : Step α → Bool} {front rest : List (Step α)}
    {details : List (StepDetail α)} (hlength : front.length = details.length) :
    keptBefore copies (front ++ rest) details.length = (keptDetails copies front details).length := by
  rw [keptBefore, length_keptDetails hlength, Int.toNat_natCast, ← hlength, List.take_left]

/-! ## One step over the kept results -/

/-- The new references reach among the kept results what the old ones reach among all. -/
structure Redirects (base : α) (moved : List Int) (kept all : List α) : Prop where
  length : moved.length = all.length
  below : ∀ reference ∈ moved, mayRefer kept.length reference = true
  agree : ∀ index, mayRefer all.length index = true →
    reach? base kept (newReference moved index) = reach? base all index

namespace Redirects

variable {base : α} {moved : List Int} {kept all : List α}

theorem nil (base : α) : Redirects base [] [] [] where
  length := rfl
  below := by simp
  agree index h := by
    rw [mayRefer_iff] at h
    have hindex : index = baseReference := by
      rw [baseReference]
      simp only [List.length_nil] at h
      omega
    subst hindex
    rfl

/-- A dropped step leads to what its own base reference leads to. -/
theorem dropped (h : Redirects base moved kept all) {index : Int} {value : α}
    (permitted : mayRefer all.length index = true) (reached : reach? base all index = some value) :
    Redirects base (moved ++ [newReference moved index]) kept (all ++ [value]) where
  length := by simp [h.length]
  below := below_of_dropped h.below index
  agree i hi := by
    rw [newReference_concat, reach?_concat, h.length]
    by_cases hlast : i = all.length
    · rw [if_pos hlast, if_pos hlast, h.agree index permitted, reached]
    · rw [if_neg hlast, if_neg hlast]
      refine h.agree i ?_
      rw [mayRefer_iff] at hi ⊢
      rw [List.length_append, List.length_singleton] at hi
      omega

/-- A kept step is reached at its new place, and the places before it stay as they are. -/
theorem kept_concat (h : Redirects base moved kept all) (value : α) :
    Redirects base (moved ++ [(kept.length : Int)]) (kept ++ [value]) (all ++ [value]) where
  length := by simp [h.length]
  below := by
    rw [List.length_append, List.length_singleton]
    exact below_of_kept h.below
  agree i hi := by
    rw [newReference_concat, reach?_concat base all, h.length]
    by_cases hlast : i = all.length
    · rw [if_pos hlast, if_pos hlast, reach?_concat, if_pos rfl]
    · have hbefore : newReference moved i ≠ kept.length := by
        have hnew := mayRefer_newReference h.below i
        rw [mayRefer_iff] at hnew
        omega
      rw [if_neg hlast, if_neg hlast, reach?_concat, if_neg hbefore]
      refine h.agree i ?_
      rw [mayRefer_iff] at hi ⊢
      rw [List.length_append, List.length_singleton] at hi
      omega

end Redirects

section Simulation

variable [Arithmetic α] {base : α} {rates : Rates α} {sequence : String}
variable {moved : List Int} {kept all : List α} {place : Int → Int}

theorem Operand.resolve_redirect (h : Redirects base moved kept all) {operand : Operand α}
    (refers : ∀ index, operand = .step index → mayRefer all.length index = true)
    (hplace : place all.length = kept.length) :
    (operand.redirect moved).resolve base kept rates sequence kept.length =
      (operand.resolve base all rates sequence all.length).mapError (·.relocate place) := by
  cases operand with
  | rate key form =>
    simp only [Operand.redirect, Operand.resolve]
    cases rates key <;> rfl
  | step index =>
    obtain ⟨value, hvalue⟩ := reach?_of_mayRefer base (refers index rfl)
    simp only [Operand.redirect, Operand.resolve, reach, h.agree index (refers index rfl), hvalue,
      Except.mapError]
  | number value => rfl
  | unsupported =>
    simp [Operand.redirect, Operand.resolve, Except.mapError, EvaluationError.relocate, hplace]

theorem applyAll_redirect (rates : Rates α) (sequence : String)
    (h : Redirects base moved kept all) {operations : List (Operation α)}
    (hplace : place all.length = kept.length) :
    ∀ (value : α), (∀ op ∈ operations, op.FitsAt all.length) →
      applyAll base kept rates sequence kept.length value
          (operations.map fun op => { op with operand := op.operand.redirect moved }) =
        (applyAll base all rates sequence all.length value operations).mapError
          (·.relocate place) := by
  induction operations with
  | nil => intros; rfl
  | cons op rest ih =>
    intro value fits
    rw [List.forall_mem_cons] at fits
    rw [List.map_cons, applyAll, applyAll, Operand.resolve_redirect h fits.1.refers hplace]
    cases op.operand.resolve base all rates sequence all.length with
    | error e => rfl
    | ok rhs =>
      simp only [Except.mapError, ok_bind]
      cases op.action.apply value rhs with
      | ok next => exact ih next fits.2
      | error fault =>
        cases fault with
        | divisionByZero => simp [EvaluationError.relocate, hplace]
        | unknownAction got => rfl

/-- A redirected step does over the kept results what the step does over all of them. -/
theorem Step.run_redirect (h : Redirects base moved kept all) {step : Step α}
    (fits : step.FitsAt all.length) (hplace : place all.length = kept.length) :
    (step.redirect moved).run base rates sequence kept =
      ((step.run base rates sequence all).map (·.renumber kept.length)).mapError
        (·.relocate place) := by
  obtain ⟨start, hstart⟩ := reach?_of_mayRefer base fits.base
  have hstart' : reach? base kept (newReference moved step.baseIndex) = some start := by
    rw [h.agree _ fits.base, hstart]
  have happly := applyAll_redirect rates sequence h hplace start fits.operations
  simp only [Step.run, reach, Step.redirect, hstart, hstart', ok_bind] at happly ⊢
  rw [happly]
  cases applyAll base all rates sequence all.length start step.operations with
  | error e => rfl
  | ok value =>
    simp only [Except.mapError, ok_bind]
    have hkeys := Step.parameterKeys_redirect moved step
    by_cases hfinite : Arithmetic.isFinite value = true
    · simp [hfinite, pure, Except.pure, Except.map, StepDetail.renumber, ← hkeys, Step.redirect]
    · simp [hfinite, Except.map, EvaluationError.relocate, hplace]

/-! ## The whole run -/

/-- The steps behind `front`, with those that use `key` dropped, do what the reference run does.
The induction is on the steps still to come; `Redirects` is what a dropped step and a kept step
both preserve. -/
theorem runFrom_dropFrom (key : String) (rates : Rates α) (sequence : String)
    {steps : List (Step α)} :
    ∀ (front : List (Step α)) {moved : List Int} (all : List (StepDetail α)),
      problemsFrom all.length steps = [] → front.length = all.length →
      Redirects base moved ((keptDetails (·.usesKey key) front all).map (·.result))
        (all.map (·.result)) →
      runFrom base rates sequence (keptDetails (·.usesKey key) front all)
          (dropFrom key moved (keptDetails (·.usesKey key) front all).length steps) =
        ((runCopying (·.usesKey key) base rates sequence all steps).map
          (keptDetails (·.usesKey key) (front ++ steps))).mapError
            (·.relocate (keptBefore (·.usesKey key) (front ++ steps))) := by
  induction steps with
  | nil => intro front moved all _ _ _; simp [dropFrom, runFrom, runCopying, Except.map, Except.mapError]
  | cons step rest ih =>
    intro front moved all hfit hlength h
    rw [problemsFrom_cons_eq_nil_iff] at hfit
    have hall : (all.map (·.result)).length = all.length := List.length_map _
    have hfitStep : step.FitsAt (all.map (·.result)).length := by rw [hall]; exact hfit.1
    have hnext : ∀ detail : StepDetail α, (front ++ [step]).length = (all ++ [detail]).length := by
      intro detail
      simp [hlength]
    have hrest : ∀ detail : StepDetail α, problemsFrom (all ++ [detail]).length rest = [] := by
      intro detail
      simpa using hfit.2
    rw [dropFrom, runCopying, Step.runOrCopy]
    by_cases huses : step.usesKey key = true
    · -- The reference run copies, the shortened one does nothing: the kept details stay.
      rw [if_pos huses, if_pos huses]
      obtain ⟨start, hstart, hcopy⟩ := Step.copy_ok sequence hfitStep.base
      have hkept := keptDetails_concat (·.usesKey key) hlength step
        ⟨(all.map (·.result)).length, step.name, step.parameterKeys, start, start⟩
      rw [if_pos huses] at hkept
      have hmoved := h.dropped hfitStep.base hstart
      have hrun := ih _ _ (hrest _) (hnext _) (by rw [hkept, List.map_append]; exact hmoved)
      rw [hkept, List.append_assoc, List.singleton_append] at hrun
      rw [hcopy, ok_bind]
      exact hrun
    · -- Both runs run the step, at its own place and at its new one.
      rw [if_neg huses, if_neg huses, runFrom]
      have hplace : keptBefore (·.usesKey key) (front ++ step :: rest)
          ((all.map (·.result)).length : Nat) =
            ((keptDetails (·.usesKey key) front all).map (·.result)).length := by
        rw [hall, List.length_map]
        exact keptBefore_append hlength
      rw [Step.run_redirect h hfitStep hplace]
      cases step.run base rates sequence (all.map (·.result)) with
      | error e => rfl
      | ok detail =>
        have hkept := keptDetails_concat (·.usesKey key) hlength step detail
        rw [if_neg huses] at hkept
        have hmoved := h.kept_concat detail.result
        rw [List.length_map] at hmoved
        have hrun := ih _ _ (hrest detail) (hnext detail) (by
          rw [hkept, List.map_append, List.map_append]
          exact hmoved)
        rw [hkept, List.append_assoc, List.singleton_append, List.length_append,
          List.length_singleton] at hrun
        simp only [Except.map, Except.mapError, ok_bind, List.length_map]
        exact hrun

/-- The part of an evaluation that concerns the unmarked steps. -/
def Evaluation.keep (copies : Step α → Bool) (steps : List (Step α)) (e : Evaluation α) :
    Evaluation α :=
  let details := keptDetails copies steps e.details
  ⟨e.baseValue, Markup.finalValue e.baseValue details, details⟩

/-- A valid sequence without the steps that use `key` evaluates to the kept part of the reference
run, and fails where that fails. -/
theorem evaluate_dropSteps {steps : List (Step α)} (valid : Valid steps) (key : String) :
    evaluate (dropSteps key steps) base rates sequence =
      ((evaluateCopying (·.usesKey key) base rates sequence steps).map
        (Evaluation.keep (·.usesKey key) steps)).mapError
          (·.relocate (keptBefore (·.usesKey key) steps)) := by
  have hrun := runFrom_dropFrom key rates sequence [] [] valid rfl (Redirects.nil base)
  have hempty : keptDetails (·.usesKey key) ([] : List (Step α)) [] = [] := rfl
  rw [hempty, List.nil_append] at hrun
  rw [evaluate, evaluateCopying, dropSteps]
  rw [List.length_nil] at hrun
  rw [hrun]
  cases runCopying (·.usesKey key) base rates sequence [] steps with
  | error e => rfl
  | ok details => rfl

end Simulation

/-- Whether a step uses the growth parameter of an item type. -/
def usesGrowth (itemType : String) (step : Step α) : Bool :=
  match growthParameter? itemType with
  | some key => step.usesKey key
  | none => false

end Markup
end TenderPricing
