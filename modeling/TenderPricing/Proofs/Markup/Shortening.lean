import TenderPricing.Proofs.Markup.FinalValue
/-!
The shortened sequence as a sequence.

Leaving growth out keeps the steps that do not use it, in order, and changes nothing of them but
their references: a reference stands for the kept step that it leads to once the dropped steps are
passed over, or for the base value.  `withoutGrowth_wellFormed` says so, and that the result is a
valid sequence from which nothing more is dropped.
-/
namespace TenderPricing
namespace Markup

variable {α : Type}

/-! ## What a renumbered step keeps -/

/-- The same operand, but for the index of a step. -/
inductive Operand.Renumbered (refers : Int → Int → Prop) : Operand α → Operand α → Prop
  | step {old new : Int} (reference : refers old new) : Renumbered refers (.step old) (.step new)
  | rate (key : String) (form : RateForm) : Renumbered refers (.rate key form) (.rate key form)
  | number (value : α) : Renumbered refers (.number value) (.number value)
  | unsupported : Renumbered refers .unsupported .unsupported

structure Operation.Renumbered (refers : Int → Int → Prop) (old new : Operation α) : Prop where
  action : new.action = old.action
  operand : old.operand.Renumbered refers new.operand

/-- The same step, but for its references. -/
structure Step.Renumbered (refers : Int → Int → Prop) (old new : Step α) : Prop where
  name : new.name = old.name
  base : refers old.baseIndex new.baseIndex
  operations : List.Forall₂ (Operation.Renumbered refers) old.operations new.operations

/-- What a reference becomes in the step at `place` of the shortened sequence: the base reference if
it leads to the base value, and the new index of the kept step that it leads to otherwise. -/
inductive Renumbers (copies : Step α → Bool) (steps : List (Step α)) (place : Nat) (old : Int) :
    Int → Prop
  | base (leads : LeadsTo copies steps old baseReference) :
    Renumbers copies steps place old baseReference
  | kept {source : Nat} {step : Step α} (leads : LeadsTo copies steps old source)
    (at_ : steps[source]? = some step) (unmarked : copies step = false)
    (before : keptBefore copies steps source < place) :
    Renumbers copies steps place old (keptBefore copies steps source)

namespace Renumbers

variable {copies : Step α → Bool} {steps : List (Step α)} {place : Nat} {old new : Int}

theorem succ (h : Renumbers copies steps place old new) :
    Renumbers copies steps (place + 1) old new := by
  cases h with
  | base leads => exact .base leads
  | kept leads at_ unmarked before => exact .kept leads at_ unmarked (by omega)

/-- A marked step is passed over. -/
theorem of_copied {position : Nat} {step : Step α} (hget : steps[position]? = some step)
    (marked : copies step = true) (h : Renumbers copies steps place step.baseIndex new) :
    Renumbers copies steps place position new := by
  cases h with
  | base leads => exact .base (.copied hget marked leads)
  | kept leads at_ unmarked before => exact .kept (.copied hget marked leads) at_ unmarked before

end Renumbers

theorem Operand.redirect_renumbered {refers : Int → Int → Prop} {moved : List Int}
    {operand : Operand α}
    (h : ∀ index, operand = .step index → refers index (newReference moved index)) :
    operand.Renumbered refers (operand.redirect moved) := by
  cases operand with
  | step index => exact .step (h index rfl)
  | rate key form => exact .rate key form
  | number value => exact .number value
  | unsupported => exact .unsupported

theorem Step.redirect_renumbered {refers : Int → Int → Prop} {moved : List Int} {position : Nat}
    {step : Step α} (fits : step.FitsAt position)
    (h : ∀ index, mayRefer position index = true → refers index (newReference moved index)) :
    step.Renumbered refers (step.redirect moved) where
  name := rfl
  base := h step.baseIndex fits.base
  operations := by
    rw [Step.redirect, List.forall₂_map_right_iff, List.forall₂_same]
    intro op hop
    refine ⟨rfl, Operand.redirect_renumbered fun index hindex => ?_⟩
    exact h index ((fits.operations op hop).refers index hindex)

/-! ## The kept steps, in order -/

section Kept

variable {copies : Step α → Bool} {steps front rest : List (Step α)} {step : Step α}

theorem keptBefore_front (h : front ++ rest = steps) :
    keptBefore copies steps front.length = (front.filter fun step => !copies step).length := by
  rw [keptBefore, ← h, Int.toNat_natCast, List.take_left]

/-- The new references of the steps in `front` are those that the next kept step may use. -/
structure Renumbering (copies : Step α → Bool) (steps front : List (Step α)) (moved : List Int) :
    Prop where
  length : moved.length = front.length
  stands : ∀ index, mayRefer front.length index = true →
    Renumbers copies steps (front.filter fun step => !copies step).length index
      (newReference moved index)

namespace Renumbering

variable {moved : List Int}

theorem nil : Renumbering copies steps [] [] where
  length := rfl
  stands index h := by
    rw [mayRefer_iff] at h
    have hindex : index = baseReference := by
      rw [baseReference]
      simp only [List.length_nil] at h
      omega
    subst hindex
    exact .base .base

theorem dropped (h : Renumbering copies steps front moved) (hsteps : front ++ step :: rest = steps)
    (fits : step.FitsAt front.length) (marked : copies step = true) :
    Renumbering copies steps (front ++ [step]) (moved ++ [newReference moved step.baseIndex]) where
  length := by simp [h.length]
  stands index hindex := by
    have hget : steps[front.length]? = some step := by simp [← hsteps]
    have hcount : ((front ++ [step]).filter fun step => !copies step).length =
        (front.filter fun step => !copies step).length := by simp [marked]
    rw [hcount, newReference_concat, h.length]
    by_cases hlast : index = front.length
    · subst hlast
      rw [if_pos rfl]
      exact (h.stands _ fits.base).of_copied hget marked
    · rw [if_neg hlast]
      refine h.stands index ?_
      rw [mayRefer_iff] at hindex ⊢
      rw [List.length_append, List.length_singleton] at hindex
      omega

theorem kept (h : Renumbering copies steps front moved) (hsteps : front ++ step :: rest = steps)
    (unmarked : copies step = false) :
    Renumbering copies steps (front ++ [step])
      (moved ++ [((front.filter fun step => !copies step).length : Int)]) where
  length := by simp [h.length]
  stands index hindex := by
    have hget : steps[front.length]? = some step := by simp [← hsteps]
    have hcount : ((front ++ [step]).filter fun step => !copies step).length =
        (front.filter fun step => !copies step).length + 1 := by simp [unmarked]
    rw [hcount, newReference_concat, h.length]
    by_cases hlast : index = front.length
    · subst hlast
      have hplace : keptBefore copies steps front.length = _ := keptBefore_front hsteps
      rw [if_pos rfl, ← hplace]
      exact .kept (.kept hget unmarked) hget unmarked (by omega)
    · rw [if_neg hlast]
      refine (h.stands index ?_).succ
      rw [mayRefer_iff] at hindex ⊢
      rw [List.length_append, List.length_singleton] at hindex
      omega

end Renumbering

/-- The steps behind `front` that are kept, each with its place in the shortened sequence.  The
induction is on the steps to come; `Renumbering` is what a dropped step and a kept step both
preserve. -/
theorem dropFrom_renumbered (key : String) :
    ∀ (front : List (Step α)) {moved : List Int}, front ++ rest = steps →
      problemsFrom front.length rest = [] → Renumbering (·.usesKey key) steps front moved →
        List.Forall₂
          (fun old entry => old.Renumbered (Renumbers (·.usesKey key) steps entry.2) entry.1)
          (rest.filter fun step => !step.usesKey key)
          ((dropFrom key moved (front.filter fun step => !step.usesKey key).length rest).zipIdx
            (front.filter fun step => !step.usesKey key).length) := by
  induction rest with
  | nil => intro front moved _ _ _; exact .nil
  | cons step rest ih =>
    intro front moved hsteps hfit h
    rw [problemsFrom_cons_eq_nil_iff] at hfit
    have hfront : front ++ [step] ++ rest = steps := by rw [List.append_assoc]; exact hsteps
    have hrest : problemsFrom (front ++ [step]).length rest = [] := by
      rw [List.length_append]
      exact hfit.2
    rw [dropFrom]
    by_cases huses : step.usesKey key = true
    · have hdropped := ih _ hfront hrest (h.dropped hsteps hfit.1 huses)
      simpa [huses] using hdropped
    · rw [Bool.not_eq_true] at huses
      have hkept := ih _ hfront hrest (h.kept hsteps huses)
      have hstep := Step.redirect_renumbered hfit.1 h.stands
      simp only [List.filter_append, List.filter_cons, List.filter_nil, huses, Bool.not_false,
        if_true, List.length_append, List.length_singleton] at hkept
      simpa [huses] using ⟨hstep, hkept⟩

end Kept

/-! ## Sequences with nothing to drop -/

theorem Step.redirect_eq_self {position : Nat} {moved : List Int} {step : Step α}
    (fits : step.FitsAt position)
    (same : ∀ index, mayRefer position index = true → newReference moved index = index) :
    step.redirect moved = step := by
  have hoperand : ∀ op ∈ step.operations, op.operand.redirect moved = op.operand := by
    intro op hop
    cases hkind : op.operand with
    | step index =>
      rw [Operand.redirect, same index ((fits.operations op hop).refers index hkind)]
    | _ => rfl
  have hoperations : (step.operations.map fun op =>
      { op with operand := op.operand.redirect moved }) = step.operations := by
    conv_rhs => rw [← List.map_id step.operations]
    refine List.map_congr_left fun op hop => ?_
    rw [hoperand op hop]
    rfl
  rw [Step.redirect, hoperations, same step.baseIndex fits.base]

theorem dropFrom_eq_self (key : String) {steps : List (Step α)} :
    ∀ {position : Nat} {moved : List Int}, moved.length = position →
      (∀ index, mayRefer position index = true → newReference moved index = index) →
      problemsFrom position steps = [] → (∀ step ∈ steps, step.usesKey key = false) →
        dropFrom key moved position steps = steps := by
  induction steps with
  | nil => intros; rfl
  | cons step rest ih =>
    intro position moved hlength same hfit unused
    rw [problemsFrom_cons_eq_nil_iff] at hfit
    rw [List.forall_mem_cons] at unused
    have hrest : dropFrom key (moved ++ [(position : Int)]) (position + 1) rest = rest := by
      refine ih (by simp [hlength]) (fun index hindex => ?_) hfit.2 unused.2
      rw [newReference_concat, hlength]
      by_cases hlast : index = position
      · rw [if_pos hlast, hlast]
      · rw [if_neg hlast]
        refine same index ?_
        rw [mayRefer_iff] at hindex ⊢
        omega
    rw [dropFrom, if_neg (by simp [unused.1]), Step.redirect_eq_self hfit.1 same, hrest]

theorem withoutGrowth_eq_self {steps : List (Step α)} (valid : Valid steps) {itemType : String}
    (unused : ∀ key, growthParameter? itemType = some key →
      ∀ step ∈ steps, step.usesKey key = false) :
    withoutGrowth steps itemType = steps := by
  unfold withoutGrowth
  cases hkey : growthParameter? itemType with
  | none => rfl
  | some key =>
    refine dropFrom_eq_self key rfl (fun index hindex => ?_) valid (unused key hkey)
    rw [mayRefer_iff] at hindex
    have hbase : index = -1 := by omega
    subst hbase
    rfl

/-- A kept step names the rates that it named, so it does not use the key of the dropped ones. -/
theorem usesKey_dropFrom {key : String} {steps : List (Step α)} :
    ∀ {moved : List Int} {kept : Nat}, ∀ step ∈ dropFrom key moved kept steps,
      step.usesKey key = false := by
  induction steps with
  | nil => intro moved kept; exact List.forall_mem_nil _
  | cons first rest ih =>
    intro moved kept
    unfold dropFrom
    by_cases huses : first.usesKey key = true
    · rw [if_pos huses]
      exact ih
    · rw [if_neg huses, List.forall_mem_cons]
      refine ⟨?_, ih⟩
      rw [Step.usesKey, Step.parameterKeys_redirect]
      simpa [Step.usesKey] using huses

/-- The sequence without growth is valid; it consists of the steps that do not use growth, in order
and untouched but for their references; a sequence that uses no growth is returned as it is, as is
every sequence of an item type that has none; and a second pass changes nothing. -/
theorem withoutGrowth_wellFormed {steps : List (Step α)} (valid : Valid steps)
    (itemType : String) :
    Valid (withoutGrowth steps itemType) ∧
    (∀ key, growthParameter? itemType = some key →
      List.Forall₂
        (fun old entry => old.Renumbered (Renumbers (·.usesKey key) steps entry.2) entry.1)
        (steps.filter fun step => !step.usesKey key) (withoutGrowth steps itemType).zipIdx) ∧
    ((∀ key, growthParameter? itemType = some key → ∀ step ∈ steps, step.usesKey key = false) →
      withoutGrowth steps itemType = steps) ∧
    withoutGrowth (withoutGrowth steps itemType) itemType = withoutGrowth steps itemType := by
  have hvalid := valid_withoutGrowth valid itemType
  refine ⟨hvalid, fun key hkey => ?_, withoutGrowth_eq_self valid, ?_⟩
  · have hkept := dropFrom_renumbered key [] rfl valid Renumbering.nil
    rw [withoutGrowth, hkey]
    exact hkept
  · refine withoutGrowth_eq_self hvalid fun key hkey => ?_
    rw [withoutGrowth, hkey]
    exact usesKey_dropFrom

/-- The last step referred to the second growth step, and through both to the profit step. -/
theorem withoutGrowth_wellFormed_growthTwice :
    Valid growthTwice ∧
      withoutGrowth growthTwice "суб-раб" =
        [⟨-1, [⟨.multiply, .rate "profit_subcontract" .addOne⟩], .null⟩,
          ⟨0, [⟨.divide, .step 0⟩, ⟨.add, .step (-1)⟩], .null⟩] ∧
      Valid (withoutGrowth growthTwice "суб-раб") ∧
      withoutGrowth growthTwice "раб" = growthTwice ∧
      withoutGrowth (withoutGrowth growthTwice "суб-раб") "суб-раб" =
        withoutGrowth growthTwice "суб-раб" := by
  have valid : Valid growthTwice := rfl
  obtain ⟨hvalid, -, -, htwice⟩ := withoutGrowth_wellFormed valid "суб-раб"
  obtain ⟨-, -, hsame, -⟩ := withoutGrowth_wellFormed valid "раб"
  exact ⟨valid, rfl, hvalid, hsame fun key hkey => (by cases hkey), htwice⟩

end Markup
end TenderPricing
