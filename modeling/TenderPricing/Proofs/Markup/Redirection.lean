import TenderPricing.Markup.Growth
import TenderPricing.Proofs.Markup.References
/-!
References after steps have been dropped.

`dropFrom` keeps a list of new references, one for each step seen.  Its invariant is that each of
them may be used by the step that is kept next: new references then lead backwards whatever the
old ones were, and a valid sequence stays valid.
-/
namespace TenderPricing
namespace Markup

variable {α : Type}

/-! ## New references -/

/-- The step seen last leads where it was sent; all others lead where they did. -/
theorem newReference_concat (moved : List Int) (reference index : Int) :
    newReference (moved ++ [reference]) index =
      if index = moved.length then reference else newReference moved index := by
  unfold newReference
  by_cases hlast : index = moved.length
  · subst hlast
    rw [if_pos (by omega), if_pos rfl]
    simp
  · rw [if_neg hlast]
    by_cases hneg : 0 ≤ index
    · rw [if_pos hneg, if_pos hneg, List.getElem?_append]
      by_cases hlt : index.toNat < moved.length
      · rw [if_pos hlt]
      · rw [if_neg hlt, List.getElem?_eq_none (by simp; omega),
          List.getElem?_eq_none (by omega)]
    · rw [if_neg hneg, if_neg hneg]

/-- A new reference leads to the base value or to a step that has been kept. -/
theorem mayRefer_newReference {moved : List Int} {kept : Nat}
    (below : ∀ reference ∈ moved, mayRefer kept reference = true) (index : Int) :
    mayRefer kept (newReference moved index) = true := by
  unfold newReference
  by_cases hneg : 0 ≤ index
  · rw [if_pos hneg]
    cases hget : moved[index.toNat]? with
    | none => exact mayRefer_base kept
    | some reference => exact below reference (List.mem_of_getElem? hget)
  · rw [if_neg hneg]
    exact mayRefer_base kept

theorem mayRefer_succ {position : Nat} {index : Int} (h : mayRefer position index = true) :
    mayRefer (position + 1) index = true := by
  rw [mayRefer_iff] at h ⊢
  omega

theorem below_of_dropped {moved : List Int} {kept : Nat}
    (below : ∀ reference ∈ moved, mayRefer kept reference = true) (index : Int) :
    ∀ reference ∈ moved ++ [newReference moved index], mayRefer kept reference = true := by
  intro reference hmem
  rcases List.mem_append.mp hmem with hmem | hmem
  · exact below reference hmem
  · rw [List.mem_singleton] at hmem
    subst hmem
    exact mayRefer_newReference below index

theorem below_of_kept {moved : List Int} {kept : Nat}
    (below : ∀ reference ∈ moved, mayRefer kept reference = true) :
    ∀ reference ∈ moved ++ [(kept : Int)], mayRefer (kept + 1) reference = true := by
  intro reference hmem
  rcases List.mem_append.mp hmem with hmem | hmem
  · exact mayRefer_succ (below reference hmem)
  · rw [List.mem_singleton] at hmem
    subst hmem
    rw [mayRefer_iff]
    omega

/-! ## Redirected steps -/

theorem Operation.redirect_fitsAt {position kept : Nat} {moved : List Int} {op : Operation α}
    (fits : op.FitsAt position) (below : ∀ reference ∈ moved, mayRefer kept reference = true) :
    Operation.FitsAt kept { op with operand := op.operand.redirect moved } := by
  obtain ⟨action, operand⟩ := op
  refine ⟨fits.known, fun index hindex => ?_⟩
  cases operand with
  | step old =>
    simp only [Operand.redirect, Operand.step.injEq] at hindex
    subst hindex
    exact mayRefer_newReference below old
  | _ => simp [Operand.redirect] at hindex

theorem Step.redirect_fitsAt {position kept : Nat} {moved : List Int} {step : Step α}
    (fits : step.FitsAt position) (below : ∀ reference ∈ moved, mayRefer kept reference = true) :
    (step.redirect moved).FitsAt kept := by
  refine ⟨mayRefer_newReference below step.baseIndex, ?_, ?_, ?_⟩
  · simpa [Step.redirect] using fits.nonempty
  · simpa [Step.redirect] using fits.short
  · intro op hop
    simp only [Step.redirect, List.mem_map] at hop
    obtain ⟨old, hold, rfl⟩ := hop
    exact Operation.redirect_fitsAt (fits.operations old hold) below

theorem Step.redirect_supported {moved : List Int} {step : Step α} (h : step.Supported) :
    (step.redirect moved).Supported := by
  intro op hop
  simp only [Step.redirect, List.mem_map] at hop
  obtain ⟨old, hold, rfl⟩ := hop
  have hkind := h old hold
  cases hoperand : old.operand with
  | unsupported => exact absurd hoperand hkind
  | _ => simp [Operand.redirect]

/-- The rates that a step names do not depend on its references. -/
theorem Step.parameterKeys_redirect (moved : List Int) (step : Step α) :
    (step.redirect moved).parameterKeys = step.parameterKeys := by
  have hkey : ∀ operand : Operand α, (operand.redirect moved).key? = operand.key? := by
    intro operand
    cases operand <;> rfl
  simp only [Step.parameterKeys, Step.redirect, List.filterMap_map, Function.comp_def, hkey]

/-! ## Sequences with steps dropped -/

/-- The step lemma of `dropFrom` carried along the sequence: `below` is kept by a dropped step
and by a kept one. -/
theorem problemsFrom_dropFrom (key : String) {steps : List (Step α)} :
    ∀ {position kept : Nat} {moved : List Int}, problemsFrom position steps = [] →
      (∀ reference ∈ moved, mayRefer kept reference = true) →
        problemsFrom kept (dropFrom key moved kept steps) = [] := by
  induction steps with
  | nil => intros; rfl
  | cons step rest ih =>
    intro position kept moved hfit below
    rw [problemsFrom_cons_eq_nil_iff] at hfit
    unfold dropFrom
    by_cases huses : step.usesKey key = true
    · rw [if_pos huses]
      exact ih hfit.2 (below_of_dropped below step.baseIndex)
    · rw [if_neg huses, problemsFrom_cons_eq_nil_iff]
      exact ⟨Step.redirect_fitsAt hfit.1 below, ih hfit.2 (below_of_kept below)⟩

/-- What is kept are steps of the sequence with their references redirected. -/
theorem exists_redirect_of_mem_dropFrom {key : String} {steps : List (Step α)} :
    ∀ {moved : List Int} {kept : Nat}, ∀ step ∈ dropFrom key moved kept steps,
      ∃ original ∈ steps, ∃ references, step = original.redirect references := by
  induction steps with
  | nil => intro moved kept step hstep; exact absurd hstep List.not_mem_nil
  | cons first rest ih =>
    intro moved kept step hstep
    unfold dropFrom at hstep
    by_cases huses : first.usesKey key = true
    · rw [if_pos huses] at hstep
      obtain ⟨original, hmem, hredirect⟩ := ih step hstep
      exact ⟨original, List.mem_cons_of_mem first hmem, hredirect⟩
    · rw [if_neg huses] at hstep
      rcases List.mem_cons.mp hstep with rfl | hstep
      · exact ⟨first, List.mem_cons_self, moved, rfl⟩
      · obtain ⟨original, hmem, hredirect⟩ := ih step hstep
        exact ⟨original, List.mem_cons_of_mem first hmem, hredirect⟩

theorem supported_dropFrom {key : String} {steps : List (Step α)} {kept : Nat} {moved : List Int}
    (h : ∀ step ∈ steps, step.Supported) :
    ∀ step ∈ dropFrom key moved kept steps, step.Supported := by
  intro step hstep
  obtain ⟨original, hmem, references, rfl⟩ := exists_redirect_of_mem_dropFrom step hstep
  exact Step.redirect_supported (h original hmem)

theorem valid_withoutGrowth {steps : List (Step α)} (h : Valid steps) (itemType : String) :
    Valid (withoutGrowth steps itemType) := by
  unfold withoutGrowth
  cases growthParameter? itemType with
  | none => exact h
  | some key => exact problemsFrom_dropFrom key h (by simp)

theorem supported_withoutGrowth {steps : List (Step α)} (h : ∀ step ∈ steps, step.Supported)
    (itemType : String) : ∀ step ∈ withoutGrowth steps itemType, step.Supported := by
  unfold withoutGrowth
  cases growthParameter? itemType with
  | none => exact h
  | some key => exact supported_dropFrom h

end Markup
end TenderPricing
