import TenderPricing.Proofs.Markup.Acceptance
/-!
Why the loader rejects a list of objects.

Each error but one names a place where no step stands.  The exception is a literal beyond the range
of doubles: reading breaks off there, with an error that names neither the sequence nor the step.
`loadObjects_ends` gives the exact condition.
-/
namespace TenderPricing

theorem Json.toFloat_eq_tooLarge_iff {v : Json} :
    v.toFloat = .error .tooLarge ↔
      ∃ n, v = .int n ∧ (Number.floatOfInt n).isFinite = false := by
  cases v with
  | int n => simp [Json.toFloat]
  | string s =>
    simp only [Json.toFloat]
    cases Number.readFloat? s <;> simp
  | _ => simp [Json.toFloat]

namespace Markup

variable {α : Type}

/-- The slot holds a literal that is a whole number beyond the range of doubles. -/
structure HugeLiteral (members : Members) (slot : Nat) : Prop where
  type : Json.member members (operandKey slot "Type") = .string "number"
  key : ∃ n, Json.member members (operandKey slot "Key") = .int n ∧
    (Number.floatOfInt n).isFinite = false

section Slot

variable {members : Members} {slot : Nat} {fault : NumberFault}

theorem readRate_ne_number :
    (readRate members slot : Except Rejection (Operand α)) ≠ .error (.number fault) := by
  unfold readRate
  grind

theorem readStepReference_ne_number :
    (readStepReference members slot : Except Rejection (Operand α)) ≠ .error (.number fault) := by
  unfold readStepReference
  grind

variable [Arithmetic α]

theorem readNumber_eq_number_iff :
    (readNumber members slot : Except Rejection (Operand α)) = .error (.number fault) ↔
      fault = .tooLarge ∧
        (Json.member members (operandKey slot "Key")).toFloat = .error .tooLarge := by
  simp only [readNumber]
  generalize Json.member members (operandKey slot "Key") = key
  split
  · next hlarge => simp [hlarge, eq_comm]
  · next b hvalue => simp [Json.toFloat]
  · next hother _ hfound => simpa [hfound] using fun _ => hother
  · next value _ hvalue =>
    by_cases hfinite : value.isFinite = true
    · simp [hvalue, hfinite]
    · simp [hvalue, hfinite]

theorem readOperand_eq_number_iff :
    (readOperand members slot : Except Rejection (Operand α)) = .error (.number fault) ↔
      fault = .tooLarge ∧ HugeLiteral members slot := by
  unfold readOperand
  split
  · next htype =>
    exact iff_of_false readRate_ne_number fun h => by simp [h.2.type] at htype
  · next htype =>
    exact iff_of_false readStepReference_ne_number fun h => by simp [h.2.type] at htype
  · next htype =>
    rw [readNumber_eq_number_iff, Json.toFloat_eq_tooLarge_iff]
    exact and_congr_right fun _ => ⟨fun hkey => ⟨htype, hkey⟩, fun hliteral => hliteral.key⟩
  · next hother => exact iff_of_false (by simp) fun h => hother h.2.type

/-- A slot with a literal beyond the range of doubles, after an action that is known. -/
structure BreaksAt (members : Members) (slot : Nat) : Prop where
  action : ∃ action : Action, action.isKnown = true ∧
    Json.member members (actionKey slot) = .string action.word
  literal : HugeLiteral members slot

theorem readSlot_eq_number_iff :
    (readSlot members slot : Except Rejection (Option (Operation α))) = .error (.number fault) ↔
      fault = .tooLarge ∧ BreaksAt members slot := by
  constructor
  · intro h
    simp only [readSlot] at h
    split at h
    · split at h <;> cases h
    · cases h
    · cases h
    · split at h
      · cases h
      · next action haction =>
        rw [map_eq_error_iff, readOperand_eq_number_iff] at h
        exact ⟨h.1, ⟨action, Action.ofJson?_eq_some_iff.mp haction⟩, h.2⟩
  · rintro ⟨rfl, ⟨action, known, haction⟩, hliteral⟩
    have hset : (Json.member members (actionKey slot)).isSet = true := by
      rw [haction]
      exact Action.isSet_word known
    have htype : (Json.member members (operandKey slot "Type")).isSet = true := by
      rw [hliteral.type]
      rfl
    have hread : (readOperand members slot : Except Rejection (Operand α)) =
        .error (.number .tooLarge) := readOperand_eq_number_iff.mpr ⟨rfl, hliteral⟩
    simp only [readSlot, hset, htype, Action.ofJson?_eq_some_iff.mpr ⟨known, haction⟩, hread]
    rfl

end Slot

/-- Reading an object comes to a literal beyond the range of doubles: its base index, the slots
beyond the last one and those before the literal are in order. -/
structure Breaks (members : Members) : Prop where
  baseIndex : ∃ index, (Json.member members "baseIndex").StandsFor index
  excess : ∀ slot ∈ [4, 5], slotIsUsed members slot = false
  literal : ∃ slot ∈ [1, 2, 3], BreaksAt members slot ∧ ∀ earlier ∈ [1, 2, 3], earlier < slot →
    (earlier ≠ 1 ∧ slotIsUsed members earlier = false) ∨
      ∃ op : Operation Float, op.WrittenIn members earlier

theorem exists_readSlot_iff {members : Members} {slot : Nat} :
    (∃ found : Option (Operation Float), readSlot members slot = .ok found) ↔
      (slot ≠ 1 ∧ slotIsUsed members slot = false) ∨
        ∃ op : Operation Float, op.WrittenIn members slot := by
  simp only [readSlot_eq_ok_iff]
  constructor
  · rintro ⟨found, ⟨-, hunused⟩ | ⟨op, -, hop⟩⟩
    · exact .inl hunused
    · exact .inr ⟨op, hop⟩
  · rintro (hunused | ⟨op, hop⟩)
    · exact ⟨none, .inl ⟨rfl, hunused⟩⟩
    · exact ⟨some op, .inr ⟨op, rfl, hop⟩⟩

/-- The slots count from one. -/
theorem slots_getElem?_eq_some_iff {i slot : Nat} :
    slots[i]? = some slot ↔ slot ∈ [1, 2, 3] ∧ slot = i + 1 := by
  rcases i with _ | _ | _ | i <;> grind [slots]

theorem readSlots_eq_number_iff {members : Members} {fault : NumberFault} :
    (slots.mapM (readSlot members) : Except Rejection (List (Option (Operation Float)))) =
        .error (.number fault) ↔
      fault = .tooLarge ∧ ∃ slot ∈ [1, 2, 3], BreaksAt members slot ∧
        ∀ earlier ∈ [1, 2, 3], earlier < slot →
          (earlier ≠ 1 ∧ slotIsUsed members earlier = false) ∨
            ∃ op : Operation Float, op.WrittenIn members earlier := by
  have hsucc : ∀ slot ∈ [1, 2, 3], slot = slot - 1 + 1 := by decide
  simp only [mapM_eq_error_iff, exists_readSlot_iff, readSlot_eq_number_iff,
    slots_getElem?_eq_some_iff]
  constructor
  · rintro ⟨i, slot, ⟨hslot, rfl⟩, hbefore, hfault, hbreaks⟩
    refine ⟨hfault, i + 1, hslot, hbreaks, fun earlier hearlier hlt => ?_⟩
    have hplace := hsucc earlier hearlier
    exact hbefore (earlier - 1) earlier (by omega) ⟨hearlier, hplace⟩
  · rintro ⟨hfault, slot, hslot, hbreaks, hbefore⟩
    refine ⟨slot - 1, slot, ⟨hslot, hsucc slot hslot⟩, ?_, hfault, hbreaks⟩
    rintro j earlier hj ⟨hearlier, rfl⟩
    exact hbefore (j + 1) hearlier (by omega)

theorem Step.ofMembers_eq_number_iff {members : Members} {fault : NumberFault} :
    (Step.ofMembers members : Except Rejection (Step Float)) = .error (.number fault) ↔
      fault = .tooLarge ∧ Breaks members := by
  constructor
  · intro h
    simp only [Step.ofMembers] at h
    split at h
    · cases h
    · next baseIndex hbase =>
      split at h
      · cases h
      · next hunused =>
        rcases bind_eq_error_iff.mp h with hslots | ⟨_, -, hpure⟩
        · obtain ⟨hfault, hliteral⟩ := readSlots_eq_number_iff.mp hslots
          exact ⟨hfault, ⟨baseIndex, Json.toInt?_eq_some_iff.mp hbase⟩,
            find?_excessSlots_eq_none_iff.mp hunused, hliteral⟩
        · cases hpure
  · rintro ⟨hfault, ⟨index, hindex⟩, hunused, hliteral⟩
    simp only [Step.ofMembers, Json.toInt?_eq_some_iff.mpr hindex,
      find?_excessSlots_eq_none_iff.mpr hunused]
    rw [bind_eq_error_iff]
    exact .inl (readSlots_eq_number_iff.mpr ⟨hfault, hliteral⟩)

/-! ## A list -/

/-- The value writes a step. -/
def WritesStep (raw : Json) : Prop :=
  ∃ members, raw = .object members ∧ ∃ step : Step Float, step.WrittenAs members

theorem writesStep_object_iff {members : Members} :
    WritesStep (.object members) ↔ ∃ step : Step Float, step.WrittenAs members := by
  simp [WritesStep]

theorem exists_ofRaw_iff {raw : Json} {name : String} {position : Int} :
    (∃ step : Step Float, Step.ofRaw raw name position = .ok step) ↔ WritesStep raw := by
  cases raw with
  | object members => simp only [Step.ofRaw_object_eq_ok_iff, writesStep_object_iff]
  | _ => simp [WritesStep, Step.ofRaw, Except.mapError]

theorem stepsOfRaw_eq_mapM [Arithmetic α] (name : String) {raws : List Json} :
    ∀ (position : Nat), (stepsOfRaw name position raws : Except LoadError (List (Step α))) =
      (raws.zipIdx position).mapM fun entry => Step.ofRaw entry.1 name entry.2 := by
  induction raws with
  | nil => intro position; rfl
  | cons raw rest ih =>
    intro position
    rw [stepsOfRaw, List.zipIdx_cons, List.mapM_cons, ih]

/-- Reading stops at the first value that writes no step. -/
theorem stepsOfRaw_eq_error_iff {name : String} {raws : List Json} {e : LoadError} :
    (stepsOfRaw name 0 raws : Except LoadError (List (Step Float))) = .error e ↔
      ∃ (i : Nat) (raw : Json), raws[i]? = some raw ∧
        (∀ j earlier, j < i → raws[j]? = some earlier → WritesStep earlier) ∧
        (Step.ofRaw raw name i : Except LoadError (Step Float)) = .error e := by
  have hentry : ∀ {i : Nat} {entry : Json × Nat},
      raws.zipIdx[i]? = some entry ↔ ∃ raw, raws[i]? = some raw ∧ entry = (raw, i) := by
    intro i entry
    rw [List.getElem?_zipIdx, Option.map_eq_some_iff, Nat.zero_add]
    simp only [eq_comm]
  rw [stepsOfRaw_eq_mapM, mapM_eq_error_iff]
  constructor
  · rintro ⟨i, entry, hget, hbefore, herror⟩
    obtain ⟨raw, hraw, rfl⟩ := hentry.mp hget
    refine ⟨i, raw, hraw, fun j earlier hj hearlier => ?_, herror⟩
    exact exists_ofRaw_iff.mp (hbefore j _ hj (hentry.mpr ⟨earlier, hearlier, rfl⟩))
  · rintro ⟨i, raw, hraw, hbefore, herror⟩
    refine ⟨i, _, hentry.mpr ⟨raw, hraw, rfl⟩, fun j entry hj hget => ?_, herror⟩
    obtain ⟨earlier, hearlier, rfl⟩ := hentry.mp hget
    exact exists_ofRaw_iff.mpr (hbefore j earlier hj hearlier)

/-! ## A list of objects -/

/-- The error names the sequence and a place where no step stands. -/
def BlamesStep (name : String) (objects : List Members) (e : ConfigError) : Prop :=
  ∃ i members, objects[i]? = some members ∧ ¬ IsStep i members ∧
    e.sequence = name ∧ e.step = some (i : Int)

/-- Reading a list of objects comes to a literal beyond the range of doubles: all objects before
that one write steps. -/
def ReachesBreak (objects : List Members) : Prop :=
  ∃ (i : Nat) (members : Members), objects[i]? = some members ∧ Breaks members ∧
    ∀ j earlier, j < i → objects[j]? = some earlier → ∃ step : Step Float, step.WrittenAs earlier

section Sequence

variable {name : String} {objects : List Members}

/-- Reading stops at the first object that writes no step. -/
theorem stepsOfObjects_eq_error_iff {e : LoadError} :
    (stepsOfRaw name 0 (objects.map .object) : Except LoadError (List (Step Float))) = .error e ↔
      ∃ (i : Nat) (members : Members), objects[i]? = some members ∧
        (∀ j earlier, j < i → objects[j]? = some earlier →
          ∃ step : Step Float, step.WrittenAs earlier) ∧
        ∃ rejection, (Step.ofMembers members : Except Rejection (Step Float)) = .error rejection ∧
          rejection.locate name i = e := by
  simp only [stepsOfRaw_eq_error_iff, List.getElem?_map, Option.map_eq_some_iff]
  constructor
  · rintro ⟨i, raw, ⟨members, hmembers, rfl⟩, hbefore, herror⟩
    refine ⟨i, members, hmembers, fun j earlier hj hearlier => ?_, mapError_eq_error_iff.mp herror⟩
    exact writesStep_object_iff.mp (hbefore j _ hj ⟨earlier, hearlier, rfl⟩)
  · rintro ⟨i, members, hmembers, hbefore, herror⟩
    refine ⟨i, _, ⟨members, hmembers, rfl⟩, ?_, mapError_eq_error_iff.mpr herror⟩
    rintro j _ hj ⟨earlier, hearlier, rfl⟩
    exact writesStep_object_iff.mpr (hbefore j earlier hj hearlier)

theorem loadObjects_eq_error_iff {e : LoadError} :
    loadObjects name objects = .error e ↔
      (stepsOfRaw name 0 (objects.map .object) : Except LoadError (List (Step Float))) = .error e ∨
        ∃ (steps : List (Step Float)) (fault : ConfigError),
          List.Forall₂ Step.WrittenAs objects steps ∧ checkValid steps name = .error fault ∧
            e = .config fault := by
  rw [loadObjects, sequenceOfRaw, bind_eq_error_iff]
  refine or_congr_right (exists_congr fun steps => ?_)
  rw [stepsOfRaw_eq_ok_iff, bind_eq_error_iff, mapError_eq_error_iff]
  constructor
  · rintro ⟨hwritten, ⟨fault, hcheck, rfl⟩ | ⟨_, -, hpure⟩⟩
    · exact ⟨fault, hwritten, hcheck, rfl⟩
    · cases hpure
  · rintro ⟨fault, hwritten, hcheck, rfl⟩
    exact ⟨hwritten, .inl ⟨fault, hcheck, rfl⟩⟩

theorem loadObjects_eq_number_iff {fault : NumberFault} :
    loadObjects name objects = .error (.number fault) ↔
      fault = .tooLarge ∧ ReachesBreak objects := by
  rw [loadObjects_eq_error_iff, stepsOfObjects_eq_error_iff]
  constructor
  · rintro (⟨i, members, hget, hbefore, rejection, hread, hlocate⟩ | ⟨steps, config, -, -, he⟩)
    · cases rejection with
      | fault f => cases hlocate
      | number f =>
        rw [LoadError.number.inj hlocate] at hread
        obtain ⟨hfault, hbreaks⟩ := Step.ofMembers_eq_number_iff.mp hread
        exact ⟨hfault, i, members, hget, hbreaks, hbefore⟩
    · cases he
  · rintro ⟨hfault, i, members, hget, hbreaks, hbefore⟩
    exact .inl ⟨i, members, hget, hbefore, .number fault,
      Step.ofMembers_eq_number_iff.mpr ⟨hfault, hbreaks⟩, rfl⟩

theorem not_isStep_of_mem_problemsFrom {steps : List (Step Float)}
    (written : List.Forall₂ Step.WrittenAs objects steps) {problem : Problem} :
    ∀ {position : Nat}, problem ∈ problemsFrom position steps →
      ∃ i members, objects[i]? = some members ∧ problem.step = position + i ∧
        ¬ IsStep (position + i) members := by
  induction written with
  | nil =>
    intro position h
    cases h
  | @cons members step objects steps hfirst hlater ih =>
    intro position h
    rw [problemsFrom, List.mem_append, List.mem_map] at h
    rcases h with ⟨fault, hfault, rfl⟩ | hrest
    · refine ⟨0, members, rfl, rfl, ?_⟩
      rw [Nat.add_zero, isStep_iff_fitsAt hfirst, ← Step.faults_eq_nil_iff]
      exact List.ne_nil_of_mem hfault
    · obtain ⟨i, found, hget, hplace, hno⟩ := ih hrest
      rw [Nat.add_right_comm, Nat.add_assoc] at hplace hno
      exact ⟨i + 1, found, hget, hplace, hno⟩

theorem blamesStep_of_config {e : ConfigError}
    (h : loadObjects name objects = .error (.config e)) :
    BlamesStep name objects e := by
  rw [loadObjects_eq_error_iff, stepsOfObjects_eq_error_iff] at h
  rcases h with ⟨i, members, hget, -, rejection, hread, hlocate⟩ |
    ⟨steps, fault, hwritten, hcheck, he⟩
  · cases rejection with
    | number f => cases hlocate
    | fault f =>
      -- a step would have been read
      refine ⟨i, members, hget, fun hstep => ?_, ?_⟩
      · obtain ⟨step, hwritten, -⟩ := exists_step_of_isStep hstep
        rw [Step.ofMembers_eq_ok_iff.mpr hwritten] at hread
        cases hread
      · rw [← LoadError.config.inj hlocate]
        exact ⟨rfl, rfl⟩
  · obtain ⟨first, later, hproblems, hlocate⟩ := checkValid_eq_error_iff.mp hcheck
    have hfirst : first ∈ problemsFrom 0 steps := by
      rw [← problems, hproblems]
      exact List.mem_cons_self
    obtain ⟨i, members, hget, hplace, hno⟩ := not_isStep_of_mem_problemsFrom hwritten hfirst
    rw [Nat.zero_add] at hplace hno
    rw [LoadError.config.inj he, ← hlocate]
    exact ⟨i, members, hget, hno, rfl, congrArg (fun n : Nat => some (n : Int)) hplace⟩

/-- A list of objects is a list, so no error is about its shape. -/
theorem config_or_number_of_loadObjects {e : LoadError}
    (h : loadObjects name objects = .error e) :
    (∃ fault, e = .config fault) ∨ ∃ fault, e = .number fault := by
  rw [loadObjects_eq_error_iff, stepsOfObjects_eq_error_iff] at h
  rcases h with ⟨_, _, -, -, rejection, -, rfl⟩ | ⟨_, fault, -, -, rfl⟩
  · cases rejection with
    | fault f => exact .inl ⟨_, rfl⟩
    | number f => exact .inr ⟨f, rfl⟩
  · exact .inl ⟨fault, rfl⟩

/-- Loading succeeds, or breaks off at a literal beyond the range of doubles, or names a place
where no step stands. -/
theorem loadObjects_ends (name : String) (objects : List Members) :
    Ends (fun _ : List (Step Float) => True)
      (fun e => (e = .number .tooLarge ∧ ReachesBreak objects) ∨
        ∃ fault, e = .config fault ∧ BlamesStep name objects fault)
      (loadObjects name objects) := by
  cases hloaded : loadObjects name objects with
  | ok steps => trivial
  | error e =>
    rcases config_or_number_of_loadObjects hloaded with ⟨fault, rfl⟩ | ⟨fault, rfl⟩
    · exact .inr ⟨fault, rfl, blamesStep_of_config hloaded⟩
    · obtain ⟨rfl, hbreak⟩ := loadObjects_eq_number_iff.mp hloaded
      exact .inl ⟨rfl, hbreak⟩

theorem not_blamed_of_reachesBreak (h : ReachesBreak objects) :
    ¬ Ends (fun _ : List (Step Float) => True)
      (fun e => ∃ fault, e = .config fault ∧ BlamesStep name objects fault)
      (loadObjects name objects) := by
  intro hends
  obtain ⟨fault, hfault, -⟩ := hends.error (loadObjects_eq_number_iff.mpr ⟨rfl, h⟩)
  cases hfault

end Sequence

end Markup
end TenderPricing
