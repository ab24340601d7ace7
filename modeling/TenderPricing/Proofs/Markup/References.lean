import Mathlib.Data.List.Induction
import TenderPricing.Markup.Evaluation
import TenderPricing.Proofs.Outcome
/-!
The references of a checked sequence.

A sequence is valid exactly when every step fits its place: it refers to the base value or to
steps before it, and has one to three operations with actions that exist.
-/
namespace TenderPricing
namespace Markup

variable {α : Type}

/-! ## What a reference reaches -/

theorem mayRefer_iff {position : Nat} {index : Int} :
    mayRefer position index = true ↔ -1 ≤ index ∧ index < position := by
  rw [mayRefer, baseReference, Bool.and_eq_true, decide_eq_true_eq, decide_eq_true_eq]

theorem mayRefer_base (position : Nat) : mayRefer position baseReference = true := by
  rw [mayRefer_iff, baseReference]
  omega

theorem reach?_base (base : α) (results : List α) :
    reach? base results baseReference = some base := by
  simp [reach?]

theorem reach_eq_ok_iff {base : α} {results : List α} {sequence : String} {position index : Int}
    {value : α} :
    reach base results sequence position index = .ok value ↔
      reach? base results index = some value := by
  unfold reach
  cases reach? base results index with
  | some found => simp
  | none => simp

theorem reach?_natCast (base : α) (results : List α) (position : Nat) :
    reach? base results position = results[position]? := by
  unfold reach? baseReference
  rw [if_neg (by omega), if_pos (by omega), Int.toNat_natCast]

theorem reach?_of_mayRefer (base : α) {results : List α} {index : Int}
    (h : mayRefer results.length index = true) : ∃ value, reach? base results index = some value := by
  rw [mayRefer_iff] at h
  unfold reach? baseReference
  by_cases hbase : index = -1
  · exact ⟨base, if_pos hbase⟩
  · have hnat : index.toNat < results.length := by omega
    rw [if_neg hbase, if_pos (by omega)]
    exact ⟨results[index.toNat], List.getElem?_eq_getElem hnat⟩

/-- One more result is reached by the index next in line; all others reach what they did. -/
theorem reach?_concat (base : α) (results : List α) (value : α) (index : Int) :
    reach? base (results ++ [value]) index =
      if index = results.length then some value else reach? base results index := by
  unfold reach? baseReference
  by_cases hlast : index = results.length
  · subst hlast
    rw [if_neg (by omega), if_pos (by omega), if_pos rfl]
    simp
  · rw [if_neg hlast]
    by_cases hbase : index = -1
    · rw [if_pos hbase, if_pos hbase]
    · rw [if_neg hbase, if_neg hbase]
      by_cases hneg : 0 ≤ index
      · rw [if_pos hneg, if_pos hneg, List.getElem?_append]
        by_cases hlt : index.toNat < results.length
        · rw [if_pos hlt]
        · rw [if_neg hlt, List.getElem?_eq_none (by simp; omega),
            List.getElem?_eq_none (by omega)]
      · rw [if_neg hneg, if_neg hneg]

/-- The index before the first free place reaches the last result, or the base. -/
theorem reach?_last (base : α) (results : List α) :
    reach? base results (results.length - 1) = some (results.getLast?.getD base) := by
  induction results using List.reverseRecOn with
  | nil => rfl
  | append_singleton done last _ =>
    rw [reach?_concat, if_pos (by simp)]
    simp

theorem finalValue_eq_getLast (base : α) (details : List (StepDetail α)) :
    finalValue base details = (details.map (·.result)).getLast?.getD base := by
  rw [finalValue, List.getLast?_map]
  cases details.getLast? <;> rfl

theorem reach?_finalValue (base : α) (details : List (StepDetail α)) :
    reach? base (details.map (·.result)) (details.length - 1) = some (finalValue base details) := by
  have h := reach?_last base (details.map (·.result))
  rwa [List.length_map, ← finalValue_eq_getLast] at h

/-- What is reached among the first results is reached among all of them. -/
theorem reach?_of_take {base : α} {results : List α} {count : Nat} {index : Int} {value : α}
    (h : reach? base (results.take count) index = some value) :
    reach? base results index = some value := by
  unfold reach? at h ⊢
  by_cases hbase : index = baseReference
  · rw [if_pos hbase] at h ⊢
    exact h
  · rw [if_neg hbase] at h ⊢
    by_cases hneg : 0 ≤ index
    · rw [if_pos hneg] at h ⊢
      have hlt : index.toNat < count := by
        by_contra hge
        rw [List.getElem?_take_eq_none (by omega)] at h
        cases h
      rwa [List.getElem?_take_of_lt hlt] at h
    · rw [if_neg hneg] at h
      cases h

/-! ## What a step did -/

/-- A step that ran started from its base reference, applied its operations and ended in a finite
number. -/
theorem Step.run_ok [Arithmetic α] {base : α} {rates : Rates α} {sequence : String}
    {results : List α} {step : Step α} {detail : StepDetail α}
    (h : step.run base rates sequence results = .ok detail) :
    ∃ start value, reach? base results step.baseIndex = some start ∧
      applyAll base results rates sequence results.length start step.operations = .ok value ∧
      Arithmetic.isFinite value = true ∧
      detail = ⟨results.length, step.name, step.parameterKeys, start, value⟩ := by
  rw [Step.run, bind_eq_ok_iff] at h
  obtain ⟨start, hstart, h⟩ := h
  rw [bind_eq_ok_iff] at h
  obtain ⟨value, hvalue, h⟩ := h
  by_cases hfinite : Arithmetic.isFinite value = true
  · rw [if_pos hfinite, pure_eq_ok_iff] at h
    exact ⟨start, value, reach_eq_ok_iff.mp hstart, hvalue, hfinite, h.symm⟩
  · rw [if_neg hfinite] at h
    cases h

/-! ## Steps that fit their place -/

/-- An operation that may stand in the step at a position. -/
structure Operation.FitsAt (position : Nat) (op : Operation α) : Prop where
  known : op.action.isKnown = true
  refers : ∀ index, op.operand = .step index → mayRefer position index = true

/-- A step that may stand at a position. -/
structure Step.FitsAt (position : Nat) (step : Step α) : Prop where
  base : mayRefer position step.baseIndex = true
  nonempty : step.operations ≠ []
  short : step.operations.length ≤ maxOperations
  operations : ∀ op ∈ step.operations, op.FitsAt position

/-- A step none of whose operands is of an unsupported kind. -/
def Step.Supported (step : Step α) : Prop := ∀ op ∈ step.operations, op.operand ≠ .unsupported

theorem Operation.faults_eq_nil_iff {position slot : Nat} {op : Operation α} :
    op.faults position slot = [] ↔ op.FitsAt position := by
  obtain ⟨action, operand⟩ := op
  constructor
  · intro h
    simp only [Operation.faults, List.append_eq_nil_iff] at h
    obtain ⟨haction, hoperand⟩ := h
    refine ⟨?_, ?_⟩
    · cases action <;> simp [Action.isKnown] at haction ⊢
    · rintro index rfl
      by_cases hrefer : mayRefer position index = true
      · exact hrefer
      · simp [hrefer] at hoperand
  · rintro ⟨hknown, hrefers⟩
    simp only [Operation.faults, List.append_eq_nil_iff]
    constructor
    · cases action <;> simp [Action.isKnown] at hknown ⊢
    · cases operand with
      | step index => simp [hrefers index rfl]
      | _ => rfl

/-- Whether an operation has faults does not depend on its slot. -/
theorem flatMap_faults_eq_nil_iff {position slot : Nat} {operations : List (Operation α)} :
    ((operations.zipIdx slot).flatMap fun (op, slot) => op.faults position slot) = [] ↔
      ∀ op ∈ operations, op.FitsAt position := by
  induction operations generalizing slot with
  | nil => simp
  | cons op rest ih =>
    rw [List.zipIdx_cons, List.flatMap_cons, List.append_eq_nil_iff, ih,
      Operation.faults_eq_nil_iff, List.forall_mem_cons]

theorem Step.faults_eq_nil_iff {position : Nat} {step : Step α} :
    step.faults position = [] ↔ step.FitsAt position := by
  simp only [Step.faults, List.append_eq_nil_iff, flatMap_faults_eq_nil_iff]
  constructor
  · rintro ⟨⟨⟨hbase, hnonempty⟩, hshort⟩, hoperations⟩
    refine ⟨?_, ?_, ?_, hoperations⟩
    · by_cases h : mayRefer position step.baseIndex = true
      · exact h
      · simp [h] at hbase
    · simpa using hnonempty
    · simpa using hshort
  · rintro ⟨hbase, hnonempty, hshort, hoperations⟩
    refine ⟨⟨⟨if_pos hbase, ?_⟩, ?_⟩, hoperations⟩
    · simpa using hnonempty
    · simpa using hshort

/-- A sequence has no problems when its first step fits and the rest has none one place on. -/
theorem problemsFrom_cons_eq_nil_iff {position : Nat} {step : Step α} {rest : List (Step α)} :
    problemsFrom position (step :: rest) = [] ↔
      step.FitsAt position ∧ problemsFrom (position + 1) rest = [] := by
  rw [problemsFrom, List.append_eq_nil_iff, List.map_eq_nil_iff, Step.faults_eq_nil_iff]

theorem fitsAt_of_getElem? {steps : List (Step α)} :
    ∀ {position i : Nat} {step : Step α}, problemsFrom position steps = [] →
      steps[i]? = some step → step.FitsAt (position + i) := by
  induction steps with
  | nil => intro position i step _ hget; simp at hget
  | cons first rest ih =>
    intro position i step hfit hget
    rw [problemsFrom_cons_eq_nil_iff] at hfit
    cases i with
    | zero =>
      rw [List.getElem?_cons_zero, Option.some.injEq] at hget
      subst hget
      exact hfit.1
    | succ i =>
      rw [List.getElem?_cons_succ] at hget
      have hrest := ih hfit.2 hget
      rwa [Nat.add_right_comm, Nat.add_assoc] at hrest

theorem Valid.fitsAt {steps : List (Step α)} (valid : Valid steps) {position : Nat}
    {step : Step α} (hget : steps[position]? = some step) : step.FitsAt position := by
  have h := fitsAt_of_getElem? valid hget
  rwa [Nat.zero_add] at h

theorem checkValid_of_valid {steps : List (Step α)} (h : Valid steps) (sequence : String) :
    checkValid steps sequence = .ok () := by
  unfold Valid at h
  rw [checkValid, h]

theorem valid_of_checkValid {steps : List (Step α)} {sequence : String}
    (h : checkValid steps sequence = .ok ()) : Valid steps := by
  unfold checkValid at h
  unfold Valid
  cases hp : problems steps with
  | nil => rfl
  | cons p rest => simp [hp] at h

/-- A sequence is refused for its first problem. -/
theorem checkValid_eq_error_iff {steps : List (Step α)} {sequence : String} {e : ConfigError} :
    checkValid steps sequence = .error e ↔
      ∃ first later, problems steps = first :: later ∧ first.locate sequence = e := by
  unfold checkValid
  cases problems steps with
  | nil => simp
  | cons first later => simp

end Markup
end TenderPricing
