import TenderPricing.Proofs.Markup.Loading
/-!
The objects that the loader accepts as a sequence.

`IsStep` says which objects may stand at a place: they write a step, and what the step refers to
stands before it.  The loader reads all objects first and checks the references of the steps
afterwards; `loadObjects_accepts_steps` says that this accepts a list of objects exactly if each
of them is a step at its place.
-/
namespace TenderPricing
namespace Markup

/-- The slot holds an operation that refers to nothing at or behind `position`. -/
def IsOperation (position : Nat) (members : Members) (slot : Nat) : Prop :=
  ∃ op : Operation Float, op.WrittenIn members slot ∧
    ∀ index, op.operand = .step index → -1 ≤ index ∧ index < position

/-- The members of an object that may stand at `position` in a sequence. -/
structure IsStep (position : Nat) (members : Members) : Prop where
  baseIndex : ∃ index, (Json.member members "baseIndex").StandsFor index ∧
    -1 ≤ index ∧ index < position
  excess : ∀ slot ∈ [4, 5], (Json.member members (actionKey slot)).isSet = false ∧
    (Json.member members (operandKey slot "Type")).isSet = false
  first : (Json.member members (actionKey 1)).isSet = true ∧
    (Json.member members (operandKey 1 "Type")).isSet = true
  paired : ∀ slot ∈ [2, 3], (Json.member members (actionKey slot)).isSet =
    (Json.member members (operandKey slot "Type")).isSet
  operations : ∀ slot ∈ [1, 2, 3], (Json.member members (actionKey slot)).isSet = true →
    IsOperation position members slot

section Object

variable {position : Nat} {members : Members}

theorem IsStep.isOperation_of_used (h : IsStep position members) :
    ∀ slot ∈ [1, 2, 3], slotIsUsed members slot = true → IsOperation position members slot := by
  intro slot hslot hused
  refine h.operations slot hslot ?_
  rw [slotIsUsed] at hused
  rcases List.mem_cons.mp hslot with rfl | hlater
  · exact h.first.1
  · rwa [← h.paired slot hlater, Bool.or_self] at hused

theorem exists_step_of_isStep (h : IsStep position members) :
    ∃ step : Step Float, step.WrittenAs members ∧ step.FitsAt position := by
  obtain ⟨index, hindex, hrange⟩ := h.baseIndex
  have hslots : ∀ slot ∈ [1, 2, 3].filter (slotIsUsed members), IsOperation position members slot :=
    fun slot hslot => h.isOperation_of_used slot (List.mem_of_mem_filter hslot)
      (List.of_mem_filter hslot)
  obtain ⟨operations, hoperations⟩ := exists_forall₂ hslots
  have hwritten : Step.WrittenAs members
      (⟨index, operations, (Json.member members "name").orNull⟩ : Step Float) := by
    refine ⟨hindex, fun slot hslot => ?_, ?_, hoperations.imp fun _ _ hop => hop.1, rfl⟩
    · rw [slotIsUsed, (h.excess slot hslot).1, (h.excess slot hslot).2, Bool.or_false]
    · rw [slotIsUsed, h.first.1, Bool.true_or]
  refine ⟨_, hwritten, mayRefer_iff.mpr hrange, hwritten.nonempty, hwritten.few, fun op hop => ?_⟩
  obtain ⟨slot, -, hslot, hrefers⟩ := exists_mem_of_forall₂ hoperations op hop
  exact ⟨hslot.known, fun reference hstep => mayRefer_iff.mpr (hrefers reference hstep)⟩

theorem isStep_of_fitsAt {step : Step Float} (written : step.WrittenAs members)
    (fits : step.FitsAt position) : IsStep position members where
  baseIndex := ⟨step.baseIndex, written.baseIndex, mayRefer_iff.mp fits.base⟩
  excess slot hslot := by
    have hunused := written.excess slot hslot
    rwa [slotIsUsed, Bool.or_eq_false_iff] at hunused
  first := by
    obtain ⟨op, -, hop⟩ := written.exists_operation List.mem_cons_self written.first
    exact ⟨hop.isSet_action, hop.operand.isSet_type⟩
  paired slot hslot := by
    cases hused : slotIsUsed members slot with
    | false =>
      rw [slotIsUsed, Bool.or_eq_false_iff] at hused
      rw [hused.1, hused.2]
    | true =>
      obtain ⟨op, -, hop⟩ := written.exists_operation (List.mem_cons_of_mem _ hslot) hused
      rw [hop.isSet_action, hop.operand.isSet_type]
  operations slot hslot haction := by
    have hused : slotIsUsed members slot = true := by rw [slotIsUsed, haction, Bool.true_or]
    obtain ⟨op, hmem, hop⟩ := written.exists_operation hslot hused
    exact ⟨op, hop, fun index hstep =>
      mayRefer_iff.mp ((fits.operations op hmem).refers index hstep)⟩

/-- An object writes one step only, so it is a step at a position if that one fits. -/
theorem isStep_iff_fitsAt {step : Step Float} (written : step.WrittenAs members) :
    IsStep position members ↔ step.FitsAt position := by
  constructor
  · intro h
    obtain ⟨other, hother, fits⟩ := exists_step_of_isStep h
    have hsame := (Step.ofMembers_eq_ok_iff.mpr written).symm.trans
      (Step.ofMembers_eq_ok_iff.mpr hother)
    rwa [Except.ok.inj hsame]
  · exact isStep_of_fitsAt written

end Object

/-- The steps of a list of objects, or why it has none. -/
def loadObjects (name : String) (objects : List Members) : Except LoadError (List (Step Float)) :=
  sequenceOfRaw (.array (objects.map .object)) name

section Sequence

variable {name : String} {objects : List Members}

theorem stepsOfRaw_eq_ok_iff {α : Type} [Arithmetic α] :
    ∀ {position : Nat} {steps : List (Step α)},
      stepsOfRaw name position (objects.map .object) = .ok steps ↔
        List.Forall₂ Step.WrittenAs objects steps := by
  induction objects with
  | nil =>
    intro position steps
    rw [List.map_nil, stepsOfRaw, Except.ok.injEq, List.forall₂_nil_left_iff, eq_comm]
  | cons members rest ih =>
    intro position steps
    rw [List.map_cons, stepsOfRaw, bind_eq_ok_iff, List.forall₂_cons_left_iff]
    simp only [bind_eq_ok_iff, pure_eq_ok_iff, ih, Step.ofRaw_object_eq_ok_iff]
    constructor
    · rintro ⟨step, hstep, later, hlater, rfl⟩
      exact ⟨step, later, hstep, hlater, rfl⟩
    · rintro ⟨step, later, hstep, hlater, rfl⟩
      exact ⟨step, hstep, later, hlater, rfl⟩

theorem problemsFrom_eq_nil_iff_isStep {steps : List (Step Float)}
    (written : List.Forall₂ Step.WrittenAs objects steps) :
    ∀ {position : Nat}, problemsFrom position steps = [] ↔
      ∀ i members, objects[i]? = some members → IsStep (position + i) members := by
  induction written with
  | nil => simp [problemsFrom]
  | @cons members step objects steps hfirst hlater ih =>
    intro position
    rw [problemsFrom_cons_eq_nil_iff, ← isStep_iff_fitsAt hfirst, ih]
    constructor
    · rintro ⟨hstep, hrest⟩ i found hget
      cases i with
      | zero =>
        rw [List.getElem?_cons_zero, Option.some.injEq] at hget
        subst hget
        exact hstep
      | succ i =>
        rw [List.getElem?_cons_succ] at hget
        rw [← Nat.add_assoc, Nat.add_right_comm]
        exact hrest i found hget
    · intro h
      refine ⟨h 0 members rfl, fun i found hget => ?_⟩
      rw [Nat.add_right_comm, Nat.add_assoc]
      exact h (i + 1) found hget

theorem loadObjects_eq_ok_iff {steps : List (Step Float)} :
    loadObjects name objects = .ok steps ↔
      List.Forall₂ Step.WrittenAs objects steps ∧ Valid steps := by
  rw [loadObjects, sequenceOfRaw, bind_eq_ok_iff]
  simp only [stepsOfRaw_eq_ok_iff]
  constructor
  · rintro ⟨found, hwritten, h⟩
    rw [bind_eq_ok_iff] at h
    obtain ⟨_, hcheck, h⟩ := h
    rw [pure_eq_ok_iff] at h
    subst h
    exact ⟨hwritten, valid_of_checkValid (mapError_eq_ok_iff.mp hcheck)⟩
  · rintro ⟨hwritten, valid⟩
    refine ⟨steps, hwritten, ?_⟩
    rw [checkValid_of_valid valid]
    rfl

theorem exists_steps_of_isStep (h : ∀ i members, objects[i]? = some members → IsStep i members) :
    ∃ steps : List (Step Float), List.Forall₂ Step.WrittenAs objects steps := by
  refine exists_forall₂ fun members hmem => ?_
  obtain ⟨i, hget⟩ := List.mem_iff_getElem?.mp hmem
  obtain ⟨step, hwritten, -⟩ := exists_step_of_isStep (h i members hget)
  exact ⟨step, hwritten⟩

theorem valid_iff_isStep {steps : List (Step Float)}
    (written : List.Forall₂ Step.WrittenAs objects steps) :
    Valid steps ↔ ∀ i members, objects[i]? = some members → IsStep i members := by
  rw [Valid, problems, problemsFrom_eq_nil_iff_isStep written]
  simp only [Nat.zero_add]

/-- The loader accepts a list of objects exactly if each of them is a step at its place, and then
returns the steps that they write. -/
theorem loadObjects_accepts_steps (name : String) (objects : List Members) :
    ((∃ steps, loadObjects name objects = .ok steps) ↔
      ∀ i members, objects[i]? = some members → IsStep i members) ∧
    ∀ steps, loadObjects name objects = .ok steps ↔
      (∀ i members, objects[i]? = some members → IsStep i members) ∧
        List.Forall₂ Step.WrittenAs objects steps := by
  have hreads : ∀ steps, loadObjects name objects = .ok steps ↔
      (∀ i members, objects[i]? = some members → IsStep i members) ∧
        List.Forall₂ Step.WrittenAs objects steps := by
    intro steps
    rw [loadObjects_eq_ok_iff, and_comm]
    exact and_congr_left fun written => valid_iff_isStep written
  refine ⟨⟨?_, fun h => ?_⟩, hreads⟩
  · rintro ⟨steps, hsteps⟩
    exact ((hreads steps).mp hsteps).1
  · obtain ⟨steps, hwritten⟩ := exists_steps_of_isStep h
    exact ⟨steps, (hreads steps).mpr ⟨h, hwritten⟩⟩

end Sequence

/-- A base index and a literal as numerals, a number for a key, no format, and no second slot. -/
def looseMembers : Members :=
  [("baseIndex", .string " -1 "), ("name", .string ""), ("action1", .string "multiply"),
    ("operand1Type", .string "markup"), ("operand1Key", .int 5),
    ("operand1MultiplyFormat", .string ""), ("action3", .string "subtract"),
    ("operand3Type", .string "number"), ("operand3Key", .string " 2.5 ")]

/-- A step that goes on from the first one and divides by the base value. -/
def nextMembers : Members :=
  [("baseIndex", .int 0), ("name", .string "fee"), ("action1", .string "divide"),
    ("operand1Type", .string "step"), ("operand1Index", .int (-1))]

/-- The two objects are steps in this order, and the second one is none in front. -/
theorem loadObjects_accepts_steps_looseThenNext :
    loadObjects "раб" [looseMembers, nextMembers] =
        .ok [⟨-1, [⟨.multiply, .rate "5" .direct⟩, ⟨.subtract, .number (2.5 : Float)⟩], .null⟩,
          ⟨0, [⟨.divide, .step (-1)⟩], .string "fee"⟩] ∧
      IsStep 0 looseMembers ∧ IsStep 1 nextMembers ∧ ¬ IsStep 0 nextMembers := by
  have hread : loadObjects "раб" [looseMembers, nextMembers] =
      .ok [⟨-1, [⟨.multiply, .rate "5" .direct⟩, ⟨.subtract, .number (2.5 : Float)⟩], .null⟩,
        ⟨0, [⟨.divide, .step (-1)⟩], .string "fee"⟩] := rfl
  have hsteps :=
    (loadObjects_accepts_steps "раб" [looseMembers, nextMembers]).1.mp ⟨_, hread⟩
  refine ⟨hread, hsteps 0 looseMembers rfl, hsteps 1 nextMembers rfl, fun hfront => ?_⟩
  have halone : ∃ steps, loadObjects "раб" [nextMembers] = .ok steps := by
    refine (loadObjects_accepts_steps "раб" [nextMembers]).1.mpr fun i members hget => ?_
    cases i with
    | zero => rwa [← Option.some.inj hget]
    | succ i => cases hget
  obtain ⟨steps, hsteps⟩ := halone
  cases hsteps

end Markup
end TenderPricing
