import Mathlib.Data.Rat.Lemmas
import TenderPricing.Markup.RawStep
import TenderPricing.Proofs.Outcome
/-!
The grammar of persisted steps.

`Step.WrittenAs` relates the members of an object to the step that they write, slot by slot, and
`IsStep` says which objects may stand at a place of a sequence.  Neither mentions the reader: that
the reader accepts these objects and no others, and returns what they write, is proved from one
equivalence for each of its layers.
-/
namespace TenderPricing

/-- The whole number that a value stands for: itself, a double without a fraction, or a numeral
between blanks. -/
inductive Json.StandsFor : Json → Int → Prop
  | int (n : Int) : StandsFor (.int n) n
  | float {x : Float} {n : Int} (finite : x.isFinite = true)
    (whole : (Number.Binary64.ofFloat x).toRat = n) : StandsFor (.float x) n
  | numeral {s : String} {n : Int} (reads : Number.readInt? (Text.trim s) = some n) :
    StandsFor (.string s) n

namespace Number.Binary64

theorem denominator_ne_zero (x : Binary64) : x.denominator ≠ 0 :=
  Nat.pos_iff_ne_zero.mp (Nat.pow_pos (by decide))

theorem toRat_eq_intCast_iff {x : Binary64} {n : Int} :
    x.toRat = n ↔ x.isWhole = true ∧ x.floor = n := by
  have hpositive : (x.denominator : Int) ≠ 0 := by exact_mod_cast x.denominator_ne_zero
  have hmultiple : x.toRat = n ↔ x.numerator = n * x.denominator := by
    rw [toRat, ← Rat.mkRat_one n, Rat.mkRat_eq_iff x.denominator_ne_zero Nat.one_ne_zero]
    simp
  rw [hmultiple, isWhole, floor, decide_eq_true_eq]
  constructor
  · intro h
    rw [h]
    exact ⟨Int.mul_emod_left _ _, Int.mul_ediv_cancel _ hpositive⟩
  · rintro ⟨hwhole, rfl⟩
    exact (Int.ediv_mul_cancel_of_emod_eq_zero hwhole).symm

end Number.Binary64

theorem Json.toInt?_eq_some_iff {v : Json} {n : Int} : v.toInt? = some n ↔ v.StandsFor n := by
  constructor
  · intro h
    cases v with
    | int m =>
      rw [Json.toInt?, Option.some.injEq] at h
      rw [h]
      exact .int n
    | float x =>
      rw [Json.toInt?] at h
      split at h
      · next hfinite =>
        rw [Bool.and_eq_true] at hfinite
        rw [Option.some.injEq] at h
        exact .float hfinite.1 (Number.Binary64.toRat_eq_intCast_iff.mpr ⟨hfinite.2, h⟩)
      · cases h
    | string s => exact .numeral h
    | _ => cases h
  · intro h
    cases h with
    | int => rfl
    | float finite whole =>
      obtain ⟨hwhole, hfloor⟩ := Number.Binary64.toRat_eq_intCast_iff.mp whole
      simp [Json.toInt?, finite, hwhole, hfloor]
    | numeral reads => exact reads

namespace Markup

variable {α : Type}

/-! ## What a slot writes -/

/-- The form that a value gives to a rate; one that is not given is direct. -/
def RateForm.GivenBy (form : RateForm) (raw : Json) : Prop :=
  raw.isSet = false ∧ form = .direct ∨ raw = .string form.word

/-- The operand that the members of a slot write: a rate with a key that is not blank, a step by
its index, or a finite literal that is no truth value. -/
inductive Operand.WrittenIn [Arithmetic α] (members : Members) (slot : Nat) : Operand α → Prop
  | rate {form : RateForm}
    (type : Json.member members (operandKey slot "Type") = .string "markup")
    (given : Json.member members (operandKey slot "Key") ≠ .null)
    (notBlank : Text.trim (Json.member members (operandKey slot "Key")).text ≠ "")
    (formGiven : form.GivenBy (Json.member members (operandKey slot "MultiplyFormat"))) :
    WrittenIn members slot (.rate (Json.member members (operandKey slot "Key")).text form)
  | step {index : Int}
    (type : Json.member members (operandKey slot "Type") = .string "step")
    (standsFor : (Json.member members (operandKey slot "Index")).StandsFor index) :
    WrittenIn members slot (.step index)
  | number {value : Float}
    (type : Json.member members (operandKey slot "Type") = .string "number")
    (noTruth : ∀ b, Json.member members (operandKey slot "Key") ≠ .bool b)
    (converts : (Json.member members (operandKey slot "Key")).toFloat = .ok value)
    (finite : value.isFinite = true) :
    WrittenIn members slot (.number (Arithmetic.ofFloat value))

/-- The operation that the members of a slot write. -/
structure Operation.WrittenIn [Arithmetic α] (members : Members) (slot : Nat)
    (op : Operation α) : Prop where
  known : op.action.isKnown = true
  action : Json.member members (actionKey slot) = .string op.action.word
  operand : op.operand.WrittenIn members slot

/-! ## Reading a slot -/

theorem RateForm.ofWord?_eq_some_iff {word : String} {form : RateForm} :
    RateForm.ofWord? word = some form ↔ word = form.word := by
  constructor
  · intro h
    unfold RateForm.ofWord? at h
    grind [RateForm.word]
  · rintro rfl
    cases form <;> rfl

theorem RateForm.givenBy_unset {raw : Json} {form : RateForm} (unset : raw.isSet = false) :
    form.GivenBy raw ↔ form = .direct := by
  constructor
  · rintro (⟨-, hdirect⟩ | hword)
    · exact hdirect
    · subst hword
      cases form <;> cases unset
  · exact fun hdirect => .inl ⟨unset, hdirect⟩

theorem RateForm.givenBy_set {raw : Json} {form : RateForm} (set : raw.isSet = true) :
    form.GivenBy raw ↔ raw = .string form.word := by
  simp [RateForm.GivenBy, set]

theorem Action.ofJson?_eq_some_iff {raw : Json} {action : Action} :
    Action.ofJson? raw = some action ↔ action.isKnown = true ∧ raw = .string action.word := by
  constructor
  · intro h
    cases raw with
    | string word =>
      unfold Action.ofJson? Action.ofWord at h
      grind [Action.isKnown, Action.word]
    | _ => cases h
  · rintro ⟨known, rfl⟩
    cases action with
    | other word => cases known
    | _ => rfl

theorem Action.isSet_word {action : Action} (known : action.isKnown = true) :
    (Json.string action.word).isSet = true := by
  cases action with
  | other word => simp [Action.isKnown] at known
  | _ => rfl

section Slot

variable {members : Members} {slot : Nat}

theorem readRate_eq_ok_iff {operand : Operand α} :
    readRate members slot = .ok operand ↔
      Json.member members (operandKey slot "Key") ≠ .null ∧
        Text.trim (Json.member members (operandKey slot "Key")).text ≠ "" ∧
        ∃ form : RateForm, form.GivenBy (Json.member members (operandKey slot "MultiplyFormat")) ∧
          operand = .rate (Json.member members (operandKey slot "Key")).text form := by
  simp only [readRate]
  generalize Json.member members (operandKey slot "Key") = key
  generalize Json.member members (operandKey slot "MultiplyFormat") = raw
  split
  · simp
  · next hgiven =>
    by_cases hblank : Text.trim key.text = ""
    · simp [hblank]
    · rw [if_neg hblank, and_iff_right hgiven, and_iff_right hblank]
      cases hset : raw.isSet with
      | false => simp [RateForm.givenBy_unset hset, eq_comm]
      | true =>
        simp only [RateForm.givenBy_set hset]
        cases raw with
        | string word =>
          simp only [Json.string.injEq, ← RateForm.ofWord?_eq_some_iff]
          cases RateForm.ofWord? word <;> simp [eq_comm]
        | _ => simp

theorem readStepReference_eq_ok_iff {operand : Operand α} :
    readStepReference members slot = .ok operand ↔
      ∃ index, (Json.member members (operandKey slot "Index")).StandsFor index ∧
        operand = .step index := by
  simp only [readStepReference, ← Json.toInt?_eq_some_iff]
  cases (Json.member members (operandKey slot "Index")).toInt? <;> simp [eq_comm]

variable [Arithmetic α]

theorem readNumber_eq_ok_iff {operand : Operand α} :
    readNumber members slot = .ok operand ↔
      (∀ b, Json.member members (operandKey slot "Key") ≠ .bool b) ∧
        ∃ value : Float, (Json.member members (operandKey slot "Key")).toFloat = .ok value ∧
          value.isFinite = true ∧ operand = .number (Arithmetic.ofFloat value) := by
  simp only [readNumber]
  generalize Json.member members (operandKey slot "Key") = key
  split
  · next hlarge => simp [hlarge]
  · simp
  · next hfault => simp [hfault]
  · next value htruth hvalue =>
    rw [and_iff_right htruth]
    by_cases hfinite : value.isFinite = true
    · rw [if_pos hfinite]
      constructor
      · exact fun h => ⟨value, hvalue, hfinite, (Except.ok.inj h).symm⟩
      · rintro ⟨found, hfound, -, rfl⟩
        rw [Except.ok.inj (hvalue.symm.trans hfound)]
    · simp [hvalue, hfinite]

theorem readOperand_eq_ok_iff {operand : Operand α} :
    readOperand members slot = .ok operand ↔ operand.WrittenIn members slot := by
  constructor
  · intro h
    unfold readOperand at h
    split at h
    · next htype =>
      obtain ⟨hgiven, hblank, form, hform, rfl⟩ := readRate_eq_ok_iff.mp h
      exact .rate htype hgiven hblank hform
    · next htype =>
      obtain ⟨index, hindex, rfl⟩ := readStepReference_eq_ok_iff.mp h
      exact .step htype hindex
    · next htype =>
      obtain ⟨htruth, value, hvalue, hfinite, rfl⟩ := readNumber_eq_ok_iff.mp h
      exact .number htype htruth hvalue hfinite
    · cases h
  · intro h
    cases h with
    | rate type given notBlank formGiven =>
      rw [readOperand, type]
      exact readRate_eq_ok_iff.mpr ⟨given, notBlank, _, formGiven, rfl⟩
    | step type standsFor =>
      rw [readOperand, type]
      exact readStepReference_eq_ok_iff.mpr ⟨_, standsFor, rfl⟩
    | number type noTruth converts finite =>
      rw [readOperand, type]
      exact readNumber_eq_ok_iff.mpr ⟨noTruth, _, converts, finite, rfl⟩

theorem Operand.WrittenIn.isSet_type {operand : Operand α} (h : operand.WrittenIn members slot) :
    (Json.member members (operandKey slot "Type")).isSet = true := by
  cases h with
  | rate type => rw [type]; rfl
  | step type => rw [type]; rfl
  | number type => rw [type]; rfl

theorem Operation.WrittenIn.isSet_action {op : Operation α} (h : op.WrittenIn members slot) :
    (Json.member members (actionKey slot)).isSet = true := by
  rw [h.action]
  exact Action.isSet_word h.known

theorem Operation.WrittenIn.isUsed {op : Operation α} (h : op.WrittenIn members slot) :
    slotIsUsed members slot = true := by
  rw [slotIsUsed, h.operand.isSet_type, Bool.or_true]

/-- A slot is read as the operation that its members write, and as none if it is not used, but the
first slot has to be. -/
theorem readSlot_eq_ok_iff {found : Option (Operation α)} :
    readSlot members slot = .ok found ↔
      (found = none ∧ slot ≠ 1 ∧ slotIsUsed members slot = false) ∨
        ∃ op, found = some op ∧ op.WrittenIn members slot := by
  constructor
  · intro h
    simp only [readSlot] at h
    split at h
    · next haction htype =>
      by_cases hfirst : slot = 1
      · rw [if_pos hfirst] at h
        cases h
      · rw [if_neg hfirst, Except.ok.injEq] at h
        exact .inl ⟨h.symm, hfirst, by rw [slotIsUsed, haction, htype, Bool.or_false]⟩
    · cases h
    · cases h
    · split at h
      · cases h
      · next action haction =>
        obtain ⟨known, hword⟩ := Action.ofJson?_eq_some_iff.mp haction
        cases hread : (readOperand members slot : Except Rejection (Operand α)) with
        | error e =>
          rw [hread] at h
          cases h
        | ok operand =>
          rw [hread] at h
          exact .inr ⟨⟨action, operand⟩, (Except.ok.inj h).symm, known, hword,
            readOperand_eq_ok_iff.mp hread⟩
  · rintro (⟨rfl, hlater, hunused⟩ | ⟨op, rfl, hop⟩)
    · rw [slotIsUsed, Bool.or_eq_false_iff] at hunused
      simp only [readSlot, hunused.1, hunused.2, if_neg hlater]
    · have haction := Action.ofJson?_eq_some_iff.mpr ⟨hop.known, hop.action⟩
      simp only [readSlot, hop.isSet_action, hop.operand.isSet_type, haction,
        readOperand_eq_ok_iff.mpr hop.operand]
      rfl

end Slot

/-! ## Reading a step -/

/-- The step that the members of an object write: the operations of the slots in use, one after
the other, and a name if one is given.  The first slot is in use, and none beyond the third. -/
structure Step.WrittenAs [Arithmetic α] (members : Members) (step : Step α) : Prop where
  baseIndex : (Json.member members "baseIndex").StandsFor step.baseIndex
  excess : ∀ slot ∈ [4, 5], slotIsUsed members slot = false
  first : slotIsUsed members 1 = true
  operations : List.Forall₂ (fun slot op => op.WrittenIn members slot)
    ([1, 2, 3].filter (slotIsUsed members)) step.operations
  name : step.name = (Json.member members "name").orNull

section Object

variable [Arithmetic α] {members : Members}

theorem readSlot_unused {slot : Nat} (unused : slotIsUsed members slot = false)
    {found : Option (Operation α)} :
    readSlot members slot = .ok found ↔ found = none ∧ slot ≠ 1 := by
  rw [readSlot_eq_ok_iff]
  constructor
  · rintro (⟨hnone, hlater, -⟩ | ⟨op, -, hop⟩)
    · exact ⟨hnone, hlater⟩
    · rw [hop.isUsed] at unused
      cases unused
  · rintro ⟨hnone, hlater⟩
    exact .inl ⟨hnone, hlater, unused⟩

theorem readSlot_used {slot : Nat} (used : slotIsUsed members slot = true)
    {found : Option (Operation α)} :
    readSlot members slot = .ok found ↔ ∃ op, found = some op ∧ op.WrittenIn members slot := by
  rw [readSlot_eq_ok_iff, used]
  simp

/-- Slots are read as the operations of those in use, in their order. -/
theorem readSlots_iff {slots : List Nat} :
    ∀ {operations : List (Operation α)},
      (∃ found, slots.mapM (readSlot members) = .ok found ∧ found.filterMap id = operations) ↔
        (1 ∈ slots → slotIsUsed members 1 = true) ∧
          List.Forall₂ (fun slot op => op.WrittenIn members slot)
            (slots.filter (slotIsUsed members)) operations := by
  simp only [mapM_eq_ok_iff]
  induction slots with
  | nil =>
    intro operations
    simp only [List.forall₂_nil_left_iff, exists_eq_left, List.filterMap_nil, List.filter_nil,
      List.not_mem_nil, false_implies, true_and]
    exact eq_comm
  | cons slot rest ih =>
    intro operations
    cases hused : slotIsUsed members slot with
    | false =>
      rw [List.filter_cons_of_neg (by simp [hused])]
      constructor
      · rintro ⟨found, hfound, hoperations⟩
        obtain ⟨first, later, hfirst, hlater, rfl⟩ := List.forall₂_cons_left_iff.mp hfound
        obtain ⟨rfl, hslot⟩ := (readSlot_unused hused).mp hfirst
        obtain ⟨hone, hwritten⟩ := ih.mp ⟨later, hlater, hoperations⟩
        exact ⟨fun h => hone (List.mem_of_ne_of_mem (Ne.symm hslot) h), hwritten⟩
      · rintro ⟨hone, hwritten⟩
        have hslot : slot ≠ 1 := by
          rintro rfl
          rw [hone List.mem_cons_self] at hused
          cases hused
        obtain ⟨later, hlater, hoperations⟩ :=
          ih.mpr ⟨fun h => hone (List.mem_cons_of_mem _ h), hwritten⟩
        exact ⟨none :: later, .cons ((readSlot_unused hused).mpr ⟨rfl, hslot⟩) hlater, hoperations⟩
    | true =>
      rw [List.filter_cons_of_pos (by simp [hused])]
      constructor
      · rintro ⟨found, hfound, rfl⟩
        obtain ⟨first, later, hfirst, hlater, rfl⟩ := List.forall₂_cons_left_iff.mp hfound
        obtain ⟨op, rfl, hop⟩ := (readSlot_used hused).mp hfirst
        obtain ⟨hone, hwritten⟩ := ih.mp ⟨later, hlater, rfl⟩
        refine ⟨fun h => ?_, .cons hop hwritten⟩
        rcases List.mem_cons.mp h with rfl | h
        · exact hused
        · exact hone h
      · rintro ⟨hone, hwritten⟩
        obtain ⟨op, later, hop, hlater, rfl⟩ := List.forall₂_cons_left_iff.mp hwritten
        obtain ⟨found, hfound, rfl⟩ :=
          ih.mpr ⟨fun h => hone (List.mem_cons_of_mem _ h), hlater⟩
        exact ⟨some op :: found, .cons ((readSlot_used hused).mpr ⟨op, rfl, hop⟩) hfound, rfl⟩

theorem Step.WrittenAs.exists_slot {step : Step α} (h : step.WrittenAs members) :
    ∀ op ∈ step.operations, ∃ slot, op.WrittenIn members slot := fun op hop =>
  let ⟨slot, _, hslot⟩ := exists_mem_of_forall₂ h.operations op hop
  ⟨slot, hslot⟩

theorem Step.WrittenAs.exists_operation {step : Step α} (h : step.WrittenAs members) {slot : Nat}
    (hslot : slot ∈ [1, 2, 3]) (used : slotIsUsed members slot = true) :
    ∃ op ∈ step.operations, op.WrittenIn members slot :=
  exists_mem_of_forall₂ h.operations.flip slot (List.mem_filter.mpr ⟨hslot, used⟩)

theorem Step.WrittenAs.nonempty {step : Step α} (h : step.WrittenAs members) :
    step.operations ≠ [] := by
  intro hempty
  have hslots := h.operations
  rw [hempty, List.forall₂_nil_right_iff, List.filter_eq_nil_iff] at hslots
  exact hslots 1 (by decide) h.first

theorem Step.WrittenAs.few {step : Step α} (h : step.WrittenAs members) :
    step.operations.length ≤ maxOperations := by
  rw [← h.operations.length_eq]
  exact List.length_filter_le _ _

theorem find?_excessSlots_eq_none_iff :
    excessSlots.find? (slotIsUsed members) = none ↔
      ∀ slot ∈ [4, 5], slotIsUsed members slot = false := by
  simp [excessSlots]

/-- The reader of an object returns the step that its members write. -/
theorem Step.ofMembers_eq_ok_iff {step : Step α} :
    Step.ofMembers members = .ok step ↔ step.WrittenAs members := by
  constructor
  · intro h
    simp only [Step.ofMembers] at h
    split at h
    · cases h
    · next baseIndex hbase =>
      split at h
      · cases h
      · next hunused =>
        rw [bind_eq_ok_iff] at h
        obtain ⟨found, hfound, h⟩ := h
        rw [pure_eq_ok_iff] at h
        subst h
        obtain ⟨hfirst, hwritten⟩ := readSlots_iff.mp ⟨found, hfound, rfl⟩
        exact ⟨Json.toInt?_eq_some_iff.mp hbase, find?_excessSlots_eq_none_iff.mp hunused,
          hfirst (by decide), hwritten, rfl⟩
  · rintro ⟨hbase, hunused, hfirst, hwritten, hname⟩
    obtain ⟨found, hfound, hoperations⟩ := readSlots_iff.mpr ⟨fun _ => hfirst, hwritten⟩
    have hslots : slots.mapM (readSlot members) = .ok found := hfound
    simp only [Step.ofMembers, Json.toInt?_eq_some_iff.mpr hbase,
      find?_excessSlots_eq_none_iff.mpr hunused, hslots, ok_bind, hoperations, ← hname]
    rfl

end Object

end Markup
end TenderPricing
