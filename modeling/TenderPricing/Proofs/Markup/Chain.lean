import Mathlib.Algebra.BigOperators.Group.List.Basic
import Mathlib.Algebra.Field.Rat
import Mathlib.Tactic.Ring
import TenderPricing.Proofs.Markup.Redirection
/-!
Sequences that are chains.

In a chain every step starts from the one before it, so what the steps add telescopes to the
difference between the priced value and the base.  A chain stays a chain without some of its steps,
for a reference to a dropped step is led back to the last step that was kept.
-/
namespace TenderPricing
namespace Markup

variable {α : Type}

/-- Each step starts from the one before it; the step at position zero, from the base value. -/
def ChainedFrom : Nat → List (Step α) → Prop
  | _, [] => True
  | position, step :: rest => step.baseIndex = position - 1 ∧ ChainedFrom (position + 1) rest

/-- Each step starts from the one before it, the first from the base value. -/
def Chained (steps : List (Step α)) : Prop := ChainedFrom 0 steps

/-! ## Chains with steps dropped -/

theorem exists_parameterKeys_eq_of_mem_withoutGrowth {steps : List (Step α)} {itemType : String}
    {step : Step α} (h : step ∈ withoutGrowth steps itemType) :
    ∃ original ∈ steps, step.parameterKeys = original.parameterKeys := by
  unfold withoutGrowth at h
  cases hkey : growthParameter? itemType with
  | none =>
    rw [hkey] at h
    exact ⟨step, h, rfl⟩
  | some key =>
    rw [hkey] at h
    obtain ⟨original, hmem, references, rfl⟩ := exists_redirect_of_mem_dropFrom step h
    exact ⟨original, hmem, Step.parameterKeys_redirect references original⟩

/-- The invariant of `dropFrom` along a chain: the step seen last is led to the step kept last. -/
theorem chainedFrom_dropFrom (key : String) {steps : List (Step α)} :
    ∀ {moved : List Int} {kept : Nat}, ChainedFrom moved.length steps →
      newReference moved (moved.length - 1) = kept - 1 →
        ChainedFrom kept (dropFrom key moved kept steps) := by
  induction steps with
  | nil => intros; trivial
  | cons step rest ih =>
    intro moved kept chained last
    obtain ⟨hbase, hrest⟩ := chained
    have hnext : ∀ reference : Int, ChainedFrom (moved ++ [reference]).length rest ∧
        newReference (moved ++ [reference]) ((moved ++ [reference]).length - 1) = reference := by
      intro reference
      have hlength : (moved ++ [reference]).length = moved.length + 1 := by simp
      rw [hlength]
      exact ⟨hrest, by rw [newReference_concat, if_pos (by omega)]⟩
    unfold dropFrom
    by_cases huses : step.usesKey key = true
    · obtain ⟨hchained, hlast⟩ := hnext (newReference moved step.baseIndex)
      rw [if_pos huses]
      exact ih hchained (by rw [hlast, hbase, last])
    · obtain ⟨hchained, hlast⟩ := hnext kept
      rw [if_neg huses]
      refine ⟨?_, ih hchained (by rw [hlast]; omega)⟩
      show newReference moved step.baseIndex = kept - 1
      rw [hbase, last]

theorem chained_withoutGrowth {steps : List (Step α)} (h : Chained steps) (itemType : String) :
    Chained (withoutGrowth steps itemType) := by
  unfold withoutGrowth
  cases growthParameter? itemType with
  | none => exact h
  | some key => exact chainedFrom_dropFrom key h (by simp [newReference, baseReference])

/-! ## What the steps of a chain add -/

section Telescope

variable {base : Rat} {rates : Rates Rat} {sequence : String}

/-- What the steps have added so far is the last result less the base, and the next step of a chain
starts from that result. -/
theorem runFrom_sum_markupAmount {steps : List (Step Rat)} :
    ∀ {done details : List (StepDetail Rat)}, ChainedFrom done.length steps →
      (done.map (·.markupAmount)).sum = finalValue base done - base →
        runFrom base rates sequence done steps = .ok details →
          (details.map (·.markupAmount)).sum = finalValue base details - base := by
  induction steps with
  | nil =>
    intro done details _ hsum h
    rw [runFrom, Except.ok.injEq] at h
    rwa [← h]
  | cons step rest ih =>
    intro done details chained hsum h
    obtain ⟨hbase, hrest⟩ := chained
    rw [runFrom, bind_eq_ok_iff] at h
    obtain ⟨detail, hdetail, h⟩ := h
    obtain ⟨start, value, hstart, -, -, rfl⟩ := Step.run_ok hdetail
    rw [hbase, reach?_finalValue, Option.some.injEq] at hstart
    refine ih (by simpa using hrest) ?_ h
    rw [List.map_append, List.sum_append, hsum, hstart]
    simp only [finalValue, List.map_singleton, List.sum_singleton, List.getLast?_concat,
      StepDetail.markupAmount]
    ring

theorem evaluate_sum_markupAmount {steps : List (Step Rat)} (chained : Chained steps)
    {e : Evaluation Rat} (h : evaluate steps base rates sequence = .ok e) :
    (e.details.map (·.markupAmount)).sum = e.finalValue - base := by
  rw [evaluate, bind_eq_ok_iff] at h
  obtain ⟨details, hrun, h⟩ := h
  rw [pure_eq_ok_iff] at h
  have hnone : (([] : List (StepDetail Rat)).map (·.markupAmount)).sum =
      finalValue base [] - base := by
    simp [finalValue]
  rw [← h]
  refine runFrom_sum_markupAmount ?_ hnone hrun
  exact chained

end Telescope

end Markup
end TenderPricing
