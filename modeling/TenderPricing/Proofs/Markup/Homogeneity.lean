import Mathlib.Algebra.Field.Rat
import Mathlib.Tactic.Ring
import TenderPricing.Proofs.Markup.Safety
/-!
Why a sequence of degree one scales with its base.

Two runs of a sequence are followed side by side, from a base and from `k` times that base.  The
invariant is `Scales`: what a reference reaches in the second run is `k` to the power of its degree
times what it reaches in the first.  A divisor is then zero in both runs or in neither, so the two
runs also fail alike.
-/
namespace TenderPricing
namespace Markup

/-! ## Exact numbers -/

theorem Action.apply_divide (x y : Rat) :
    Action.divide.apply x y = if y = 0 then .error .divisionByZero else .ok (x / y) := by
  show (if (y == 0.0) = true then _ else _) = _
  rw [Arithmetic.exact_zero]
  simp

theorem probeBase_eq : (probeBase : Rat) = 100 := by decide +kernel

/-- Exact numbers are all finite, which leaves divisions by zero. -/
theorem NumericFailure.exact {sequence : String} {e : EvaluationError}
    (h : NumericFailure Rat sequence e) : ∃ step, e = .divisionByZero sequence step := by
  cases h with
  | divisionByZero step => exact ⟨step, rfl⟩
  | nonFinite step value infinite => exact absurd infinite Bool.noConfusion

/-! ## The degree of an operation -/

/-- The degree that an action gives to operands of the first two degrees, if it gives one. -/
inductive Action.Combines : Action → Int → Int → Int → Prop
  | multiply (d e : Int) : Combines .multiply d e (d + e)
  | divide (d e : Int) : Combines .divide d e (d - e)
  | add (d : Int) : Combines .add d d d
  | subtract (d : Int) : Combines .subtract d d d
  | other (word : String) (d : Int) : Combines (.other word) d d d

theorem degreeAfter_cons {α : Type} {degrees : List Int} {degree final : Int} {op : Operation α}
    {rest : List (Operation α)}
    (h : degreeAfter degrees degree (op :: rest) = .ok (some final)) :
    ∃ rhs next, op.operand.degree degrees = .ok rhs ∧ op.action.Combines degree rhs next ∧
      degreeAfter degrees next rest = .ok (some final) := by
  rw [degreeAfter, bind_eq_ok_iff] at h
  obtain ⟨rhs, hrhs, h⟩ := h
  have hsame : (if degree = rhs then degreeAfter degrees degree rest else .ok none) =
      .ok (some final) → degree = rhs ∧ degreeAfter degrees degree rest = .ok (some final) := by
    intro hif
    by_cases heq : degree = rhs
    · rw [if_pos heq] at hif
      exact ⟨heq, hif⟩
    · simp [heq] at hif
  cases haction : op.action with
  | multiply =>
    simp only [haction] at h
    exact ⟨rhs, degree + rhs, hrhs, .multiply degree rhs, h⟩
  | divide =>
    simp only [haction] at h
    exact ⟨rhs, degree - rhs, hrhs, .divide degree rhs, h⟩
  | add =>
    simp only [haction] at h
    obtain ⟨rfl, hrest⟩ := hsame h
    exact ⟨degree, degree, hrhs, .add degree, hrest⟩
  | subtract =>
    simp only [haction] at h
    obtain ⟨rfl, hrest⟩ := hsame h
    exact ⟨degree, degree, hrhs, .subtract degree, hrest⟩
  | other word =>
    simp only [haction] at h
    obtain ⟨rfl, hrest⟩ := hsame h
    exact ⟨degree, degree, hrhs, .other word degree, hrest⟩

/-- Operands that scale by their degrees have a value that scales by the combined one, or are
refused for the same reason. -/
theorem Action.apply_scales {k : Rat} (hk : k ≠ 0) {action : Action} {d e combined : Int}
    (h : action.Combines d e combined) (x y : Rat) :
    Together (fun value scaled => scaled = k ^ combined * value) (action.apply x y)
      (action.apply (k ^ d * x) (k ^ e * y)) := by
  cases h with
  | multiply =>
    show k ^ d * x * (k ^ e * y) = k ^ (d + e) * (x * y)
    rw [zpow_add₀ hk]
    ring
  | divide =>
    rw [Action.apply_divide, Action.apply_divide]
    by_cases hzero : y = 0
    · subst hzero
      rw [if_pos rfl, mul_zero, if_pos rfl]
      exact rfl
    · rw [if_neg hzero, if_neg (mul_ne_zero (zpow_ne_zero e hk) hzero)]
      show k ^ d * x / (k ^ e * y) = k ^ (d - e) * (x / y)
      rw [zpow_sub₀ hk, mul_div_mul_comm]
  | add =>
    show k ^ d * x + k ^ d * y = k ^ d * (x + y)
    ring
  | subtract =>
    show k ^ d * x - k ^ d * y = k ^ d * (x - y)
    ring
  | other word => exact rfl

/-! ## Two runs side by side -/

/-- Results of two runs of which the second scales with `k` by the degrees of the steps. -/
structure Scales (k base : Rat) (degrees : List Int) (xs ys : List Rat) : Prop where
  left : xs.length = degrees.length
  right : ys.length = degrees.length
  reached : ∀ index degree, reach? 1 degrees index = some degree →
    ∃ x, reach? base xs index = some x ∧ reach? (k * base) ys index = some (k ^ degree * x)

section Scaling

variable {k base : Rat} {degrees : List Int} {xs ys : List Rat}
variable {rates : Rates Rat} {sequence : String}

theorem Scales.nil (k base : Rat) : Scales k base [] [] [] where
  left := rfl
  right := rfl
  reached index degree h := by
    by_cases hbase : index = baseReference
    · subst hbase
      rw [reach?_base, Option.some.injEq] at h
      subst h
      exact ⟨base, reach?_base base [], by rw [reach?_base, zpow_one]⟩
    · simp [reach?, hbase] at h

theorem Scales.concat (h : Scales k base degrees xs ys) (degree : Int) (x : Rat) :
    Scales k base (degrees ++ [degree]) (xs ++ [x]) (ys ++ [k ^ degree * x]) where
  left := by simp [h.left]
  right := by simp [h.right]
  reached index d hd := by
    rw [reach?_concat] at hd
    rw [reach?_concat, reach?_concat, h.left, h.right]
    by_cases hlast : index = degrees.length
    · rw [if_pos hlast, Option.some.injEq] at hd
      subst hd
      exact ⟨x, if_pos hlast, if_pos hlast⟩
    · rw [if_neg hlast] at hd
      rw [if_neg hlast, if_neg hlast]
      exact h.reached index d hd

theorem Scales.reach_eq (h : Scales k base degrees xs ys) {index degree : Int}
    (hdegree : degreeAt degrees index = .ok degree) (sequence : String) (position : Int) :
    ∃ x, reach base xs sequence position index = .ok x ∧
      reach (k * base) ys sequence position index = .ok (k ^ degree * x) := by
  have hreach : reach? 1 degrees index = some degree := by
    unfold degreeAt at hdegree
    cases hr : reach? 1 degrees index with
    | none => simp [hr] at hdegree
    | some found => simpa [hr] using hdegree
  obtain ⟨x, hx, hy⟩ := h.reached index degree hreach
  exact ⟨x, reach_eq_ok_iff.mpr hx, reach_eq_ok_iff.mpr hy⟩

theorem Operand.resolve_scales (h : Scales k base degrees xs ys) {operand : Operand Rat}
    {degree : Int} (hdegree : operand.degree degrees = .ok degree) (position : Int) :
    Together (fun x y => y = k ^ degree * x)
      (operand.resolve base xs rates sequence position)
      (operand.resolve (k * base) ys rates sequence position) := by
  have hconstant : ∀ x : Rat, 0 = degree → x = k ^ degree * x := by
    rintro x rfl
    rw [zpow_zero, one_mul]
  cases operand with
  | rate key form =>
    simp only [Operand.degree, Except.ok.injEq] at hdegree
    simp only [Operand.resolve]
    cases rates key with
    | ok percent => exact hconstant _ hdegree
    | error fault => exact rfl
  | step index =>
    obtain ⟨x, hx, hy⟩ := h.reach_eq hdegree sequence position
    simp only [Operand.resolve, hx, hy]
    exact rfl
  | number value =>
    simp only [Operand.degree, Except.ok.injEq] at hdegree
    exact hconstant value hdegree
  | unsupported => exact rfl

/-- The operations of a step keep two values apart by the degree that they add up to. -/
theorem applyAll_scales (hk : k ≠ 0) (h : Scales k base degrees xs ys) (position : Int)
    {operations : List (Operation Rat)} {final : Int} :
    ∀ (degree : Int) (x : Rat), degreeAfter degrees degree operations = .ok (some final) →
      Together (fun x y => y = k ^ final * x)
        (applyAll base xs rates sequence position x operations)
        (applyAll (k * base) ys rates sequence position (k ^ degree * x) operations) := by
  induction operations with
  | nil =>
    intro degree x hdegree
    simp only [degreeAfter, Except.ok.injEq, Option.some.injEq] at hdegree
    subst hdegree
    exact rfl
  | cons op rest ih =>
    intro degree x hdegree
    obtain ⟨rhs, next, hrhs, hcombines, hrest⟩ := degreeAfter_cons hdegree
    rw [applyAll, applyAll]
    refine (Operand.resolve_scales h hrhs position).bind fun u v huv => ?_
    subst huv
    have happly := Action.apply_scales hk hcombines x u
    cases hleft : op.action.apply x u with
    | ok value =>
      obtain ⟨scaled, hright, hscaled⟩ := happly.ok hleft
      subst hscaled
      simp only [hright]
      exact ih next value hrest
    | error fault =>
      have hright := (happly.error_iff fault).mpr hleft
      simp only [hright]
      cases fault <;> exact rfl

theorem Step.run_scales (hk : k ≠ 0) (h : Scales k base degrees xs ys) {step : Step Rat}
    {start degree : Int} (hstart : degreeAt degrees step.baseIndex = .ok start)
    (hdegree : degreeAfter degrees start step.operations = .ok (some degree)) :
    Together (fun detail scaled => scaled.result = k ^ degree * detail.result)
      (step.run base rates sequence xs) (step.run (k * base) rates sequence ys) := by
  obtain ⟨x, hx, hy⟩ := h.reach_eq hstart sequence degrees.length
  simp only [Step.run, h.left, h.right, hx, hy, ok_bind]
  refine (applyAll_scales hk h _ start x hdegree).bind fun value scaled hscaled => ?_
  exact hscaled

/-- The step lemma along the sequence, with the final values at its end. -/
theorem runFrom_scales (hk : k ≠ 0) {steps : List (Step Rat)} {final : Int} :
    ∀ (degrees : List Int) (done done' : List (StepDetail Rat)),
      Scales k base degrees (done.map (·.result)) (done'.map (·.result)) →
        degreeFrom degrees steps = .ok (some final) →
          Together (fun details details' =>
              finalValue (k * base) details' = k ^ final * finalValue base details)
            (runFrom base rates sequence done steps)
            (runFrom (k * base) rates sequence done' steps) := by
  induction steps with
  | nil =>
    intro degrees done done' h hdegree
    simp only [degreeFrom, Except.ok.injEq, Option.some.injEq] at hdegree
    obtain ⟨x, hx, hy⟩ := h.reached (degrees.length - 1) final (by rw [reach?_last, hdegree])
    have hleft := h.left
    have hright := h.right
    rw [List.length_map] at hleft hright
    rw [← hleft, reach?_finalValue, Option.some.injEq] at hx
    rw [← hright, reach?_finalValue, Option.some.injEq, ← hx] at hy
    exact hy
  | cons step rest ih =>
    intro degrees done done' h hdegree
    rw [degreeFrom, bind_eq_ok_iff] at hdegree
    obtain ⟨start, hstart, hdegree⟩ := hdegree
    rw [bind_eq_ok_iff] at hdegree
    obtain ⟨found, hfound, hdegree⟩ := hdegree
    cases found with
    | none => cases pure_eq_ok_iff.mp hdegree
    | some degree =>
      rw [runFrom, runFrom]
      refine (Step.run_scales hk h hstart hfound).bind fun detail detail' hresult => ?_
      have hnext := h.concat degree detail.result
      rw [← hresult] at hnext
      exact ih (degrees ++ [degree]) (done ++ [detail]) (done' ++ [detail'])
        (by simpa using hnext) hdegree

theorem evaluate_scales (hk : k ≠ 0) {steps : List (Step Rat)} {final : Int}
    (hdegree : degree steps = .ok (some final)) (base : Rat) (rates : Rates Rat)
    (sequence : String) :
    Together (fun e scaled => scaled.finalValue = k ^ final * e.finalValue)
      (evaluate steps base rates sequence) (evaluate steps (k * base) rates sequence) := by
  rw [evaluate, evaluate]
  exact (runFrom_scales hk [] [] [] (Scales.nil k base) hdegree).bind
    fun details details' h => h

end Scaling

/-! ## Degree one -/

theorem degree_of_isScaleInvariant {α : Type} {steps : List (Step α)}
    (h : isScaleInvariant steps = .ok true) : degree steps = .ok (some 1) := by
  rw [isScaleInvariant, bind_eq_ok_iff] at h
  obtain ⟨found, hfound, h⟩ := h
  rw [pure_eq_ok_iff, beq_iff_eq] at h
  rw [hfound, h]

/-- The coefficient of a sequence of degree one prices every base but zero: the probe and the base
are refused alike. -/
theorem coefficient_together {steps : List (Step Rat)} (valid : Valid steps)
    (hdegree : degree steps = .ok (some 1)) (rates : Rates Rat) (sequence : String) {base : Rat}
    (hbase : base ≠ 0) :
    Together (fun c e => e.finalValue = c * base) (coefficient steps rates sequence).result
      (evaluate steps base rates sequence) := by
  have hk : base / 100 ≠ 0 := div_ne_zero hbase (by norm_num)
  have hscales := evaluate_scales hk hdegree 100 rates sequence
  rw [div_mul_cancel₀ base (by norm_num : (100 : Rat) ≠ 0)] at hscales
  rw [coefficient_result valid, probeBase_eq, ← bind_pure (evaluate steps base rates sequence)]
  refine hscales.bind fun probe e hfinal => ?_
  show e.finalValue = probe.finalValue / 100 * base
  rw [hfinal, zpow_one]
  ring

/-- A sequence that is found to scale with its base does: a division by zero happens at one base
exactly when it happens at all others but zero, and else the priced value is proportional to the
base, by the coefficient where there is one. -/
theorem scaleInvariant_sound {steps : List (Step Rat)} (valid : Valid steps)
    (supported : ∀ step ∈ steps, step.Supported) (invariant : isScaleInvariant steps = .ok true)
    (percentages : List (String × Option Rat)) (sequence : String) :
    (∀ base k : Rat, k ≠ 0 →
      (∀ step, evaluate steps (k * base) (.ofList percentages) sequence =
          .error (.divisionByZero sequence step) ↔
        evaluate steps base (.ofList percentages) sequence =
          .error (.divisionByZero sequence step)) ∧
      ((∃ step, evaluate steps base (.ofList percentages) sequence =
          .error (.divisionByZero sequence step)) ∨
        ∃ e scaled, evaluate steps base (.ofList percentages) sequence = .ok e ∧
          evaluate steps (k * base) (.ofList percentages) sequence = .ok scaled ∧
          scaled.finalValue = k * e.finalValue)) ∧
    ∀ c, (coefficient steps (.ofList percentages) sequence).result = .ok c →
      ∀ base ≠ 0, ∃ e, evaluate steps base (.ofList percentages) sequence = .ok e ∧
        e.finalValue = c * base := by
  have hdegree := degree_of_isScaleInvariant invariant
  have hscales : ∀ base k : Rat, k ≠ 0 →
      Together (fun e scaled => scaled.finalValue = k * e.finalValue)
        (evaluate steps base (.ofList percentages) sequence)
        (evaluate steps (k * base) (.ofList percentages) sequence) := by
    intro base k hk
    have h := evaluate_scales hk hdegree base (.ofList percentages) sequence
    rwa [zpow_one] at h
  refine ⟨fun base k hk => ⟨fun step => (hscales base k hk).error_iff _, ?_⟩, ?_⟩
  · have hends := evaluate_ends base sequence (Rates.ofList_total percentages) valid supported
    cases heval : evaluate steps base (.ofList percentages) sequence with
    | ok e =>
      obtain ⟨scaled, hscaled, hfinal⟩ := (hscales base k hk).ok heval
      exact .inr ⟨e, scaled, rfl, hscaled, hfinal⟩
    | error failure =>
      obtain ⟨step, rfl⟩ := (hends.error heval).exact
      exact .inl ⟨step, rfl⟩
  · intro c hc base hbase
    rw [coefficient_result valid, bind_eq_ok_iff] at hc
    obtain ⟨probe, hprobe, hc⟩ := hc
    rw [Except.ok.injEq, probeBase_eq] at hc
    rw [probeBase_eq] at hprobe
    have hk : base / 100 ≠ 0 := div_ne_zero hbase (by norm_num)
    obtain ⟨e, he, hfinal⟩ := (hscales 100 (base / 100) hk).ok hprobe
    rw [div_mul_cancel₀ base (by norm_num : (100 : Rat) ≠ 0)] at he
    refine ⟨e, he, ?_⟩
    calc e.finalValue = base / 100 * probe.finalValue := hfinal
      _ = probe.finalValue / 100 * base := by ring
      _ = c * base := by rw [← hc]

/-- The markup ratio of the first step, applied to the base and added to the first step. -/
def ratioAdded : List (Step Rat) :=
  [⟨-1, [⟨.multiply, .rate "profit_own_forces" .addOne⟩], .null⟩,
    ⟨0, [⟨.divide, .step (-1)⟩], .null⟩,
    ⟨-1, [⟨.multiply, .step 1⟩, ⟨.add, .step 0⟩], .null⟩]

theorem scaleInvariant_sound_ratioAdded :
    Valid ratioAdded ∧ (∀ step ∈ ratioAdded, step.Supported) ∧
      isScaleInvariant ratioAdded = .ok true ∧
      (coefficient ratioAdded (.ofList [("profit_own_forces", some 10)]) "раб").result =
        .ok (11 / 5) ∧
      ∀ base ≠ 0, ∃ e,
        evaluate ratioAdded base (.ofList [("profit_own_forces", some 10)]) "раб" = .ok e ∧
          e.finalValue = 11 / 5 * base := by
  have valid : Valid ratioAdded := rfl
  have supported : ∀ step ∈ ratioAdded, step.Supported := by
    simp [ratioAdded, Step.Supported]
  have hcoefficient :
      (coefficient ratioAdded (.ofList [("profit_own_forces", some 10)]) "раб").result =
        .ok (11 / 5) := eq_ok_of_toOption (by decide +kernel)
  have invariant : isScaleInvariant ratioAdded = .ok true := rfl
  exact ⟨valid, supported, invariant, hcoefficient,
    (scaleInvariant_sound valid supported invariant _ _).2 (11 / 5) hcoefficient⟩

end Markup
end TenderPricing
