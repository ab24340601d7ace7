import TenderPricing.Proofs.Markup.Grammar
import TenderPricing.Proofs.Markup.References
/-!
What the loader lets through.

A sequence that was read from raw steps is valid, and its operands are rates, steps and numbers
only.  The first comes from the check that ends the loading, the second from the reading itself.
-/
namespace TenderPricing
namespace Markup

variable {α : Type} [Arithmetic α]

theorem Step.WrittenAs.supported {members : Members} {step : Step α}
    (h : step.WrittenAs members) : step.Supported := by
  intro op hop hunsupported
  obtain ⟨slot, hslot⟩ := h.exists_slot op hop
  have hoperand := hslot.operand
  rw [hunsupported] at hoperand
  cases hoperand

theorem Step.ofRaw_object_eq_ok_iff {members : Members} {sequence : String} {index : Int}
    {step : Step α} :
    Step.ofRaw (.object members) sequence index = .ok step ↔ step.WrittenAs members := by
  rw [← Step.ofMembers_eq_ok_iff]
  exact mapError_eq_ok_iff

theorem Step.ofRaw_ok {raw : Json} {sequence : String} {index : Int} {step : Step α}
    (h : Step.ofRaw raw sequence index = .ok step) :
    ∃ members, raw = .object members ∧ Step.ofMembers members = .ok step := by
  simp only [Step.ofRaw, mapError_eq_ok_iff] at h
  cases raw with
  | object members => exact ⟨members, rfl, h⟩
  | _ => cases h

theorem Step.ofRaw_supported {raw : Json} {sequence : String} {index : Int} {step : Step α}
    (h : Step.ofRaw raw sequence index = .ok step) : step.Supported := by
  obtain ⟨members, -, hread⟩ := Step.ofRaw_ok h
  exact (Step.ofMembers_eq_ok_iff.mp hread).supported

/-- What holds of every step that reads holds of all steps that are read. -/
theorem forall_mem_stepsOfRaw {P : Step α → Prop} {sequence : String} {elements : List Json}
    (hstep : ∀ raw index step, Step.ofRaw raw sequence index = .ok step → P step) :
    ∀ {position : Nat} {steps : List (Step α)}, stepsOfRaw sequence position elements = .ok steps →
      ∀ step ∈ steps, P step := by
  induction elements with
  | nil =>
    intro position steps h
    simp only [stepsOfRaw, Except.ok.injEq] at h
    subst h
    simp
  | cons raw rest ih =>
    intro position steps h
    rw [stepsOfRaw, bind_eq_ok_iff] at h
    obtain ⟨first, hfirst, h⟩ := h
    rw [bind_eq_ok_iff] at h
    obtain ⟨later, hlater, h⟩ := h
    rw [pure_eq_ok_iff] at h
    subst h
    rw [List.forall_mem_cons]
    exact ⟨hstep raw position first hfirst, ih hlater⟩

/-- A sequence comes from an array that reads and checks, or from null. -/
theorem sequenceOfRaw_cases {raw : Json} {sequence : String} {steps : List (Step α)}
    (h : sequenceOfRaw raw sequence = .ok steps) :
    (raw = .null ∧ steps = []) ∨
      ∃ elements, raw = .array elements ∧ stepsOfRaw sequence 0 elements = .ok steps ∧
        checkValid steps sequence = .ok () := by
  cases raw with
  | null =>
    simp only [sequenceOfRaw, Except.ok.injEq] at h
    exact .inl ⟨rfl, h.symm⟩
  | array elements =>
    rw [sequenceOfRaw, bind_eq_ok_iff] at h
    obtain ⟨read, hread, h⟩ := h
    rw [bind_eq_ok_iff] at h
    obtain ⟨_, hcheck, h⟩ := h
    rw [pure_eq_ok_iff] at h
    subst h
    exact .inr ⟨elements, rfl, hread, mapError_eq_ok_iff.mp hcheck⟩
  | _ => simp [sequenceOfRaw] at h

theorem valid_of_sequenceOfRaw {raw : Json} {sequence : String} {steps : List (Step α)}
    (h : sequenceOfRaw raw sequence = .ok steps) : Valid steps := by
  rcases sequenceOfRaw_cases h with ⟨-, rfl⟩ | ⟨_, -, -, hcheck⟩
  · rfl
  · exact valid_of_checkValid hcheck

theorem supported_of_sequenceOfRaw {raw : Json} {sequence : String} {steps : List (Step α)}
    (h : sequenceOfRaw raw sequence = .ok steps) : ∀ step ∈ steps, step.Supported := by
  rcases sequenceOfRaw_cases h with ⟨-, rfl⟩ | ⟨_, -, hread, -⟩
  · simp
  · exact forall_mem_stepsOfRaw (fun _ _ _ => Step.ofRaw_supported) hread

theorem keys_sequencesOfMembers {members : Members} :
    ∀ {sequences : Sequences α}, sequencesOfMembers members = .ok sequences →
      sequences.map (·.1) = members.map (·.1) := by
  induction members with
  | nil =>
    intro sequences h
    rw [sequencesOfMembers, Except.ok.injEq] at h
    simp [← h]
  | cons entry rest ih =>
    intro sequences h
    obtain ⟨type, raw⟩ := entry
    rw [sequencesOfMembers, bind_eq_ok_iff] at h
    obtain ⟨steps, -, h⟩ := h
    rw [bind_eq_ok_iff] at h
    obtain ⟨later, hlater, h⟩ := h
    rw [pure_eq_ok_iff] at h
    subst h
    exact congrArg (type :: ·) (ih hlater)

/-- What holds of every sequence that loads holds of all sequences that are loaded. -/
theorem forall_mem_sequencesOfMembers {P : List (Step α) → Prop} {members : Members}
    (hsequence : ∀ raw name steps, sequenceOfRaw raw name = .ok steps → P steps) :
    ∀ {sequences : Sequences α}, sequencesOfMembers members = .ok sequences →
      ∀ entry ∈ sequences, P entry.2 := by
  induction members with
  | nil =>
    intro sequences h
    rw [sequencesOfMembers, Except.ok.injEq] at h
    subst h
    exact List.forall_mem_nil _
  | cons entry rest ih =>
    intro sequences h
    obtain ⟨type, raw⟩ := entry
    rw [sequencesOfMembers, bind_eq_ok_iff] at h
    obtain ⟨steps, hsteps, h⟩ := h
    rw [bind_eq_ok_iff] at h
    obtain ⟨later, hlater, h⟩ := h
    rw [pure_eq_ok_iff] at h
    subst h
    exact List.forall_mem_cons.mpr ⟨hsequence raw type steps hsteps, ih hlater⟩

theorem forall_mem_sequencesOfRaw {P : List (Step α) → Prop} {raw : Json}
    (hsequence : ∀ raw name steps, sequenceOfRaw raw name = .ok steps → P steps)
    {sequences : Sequences α} (h : sequencesOfRaw raw = .ok sequences) :
    ∀ entry ∈ sequences, P entry.2 := by
  unfold sequencesOfRaw at h
  split at h
  · cases raw with
    | object members => exact forall_mem_sequencesOfMembers hsequence h
    | _ => simp at h
  · rw [Except.ok.injEq] at h
    subst h
    exact List.forall_mem_nil _

end Markup
end TenderPricing
