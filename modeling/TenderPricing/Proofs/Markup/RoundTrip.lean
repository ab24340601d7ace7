import TenderPricing.Proofs.Markup.Loading
/-!
Steps written and read back.

A slot is read from its own members only, and no two slots share a member, so the slots of a written
step can be read one at a time.  Each gives back its operation, and the slots after the last one
are empty.  What the reader returns can be written in turn, whatever spelling it was read from.
-/
namespace TenderPricing
namespace Markup

/-! ## Steps that can be written -/

/-- Rates with a key that is not blank, steps by any index, and finite numbers. -/
def Operand.Storable : Operand Float → Prop
  | rate key _ => Text.trim key ≠ ""
  | step _ => True
  | number value => value.isFinite = true
  | unsupported => False

structure Operation.Storable (op : Operation Float) : Prop where
  action : op.action.isKnown = true
  operand : op.operand.Storable

/-- One to three operations that can be written, and a name that counts as given, if any. -/
structure Step.Storable (step : Step Float) : Prop where
  nonempty : step.operations ≠ []
  few : step.operations.length ≤ maxOperations
  operations : ∀ op ∈ step.operations, op.Storable
  name : step.name = .null ∨ step.name.isSet = true

/-! ## The members of a slot -/

theorem actionKey_ne_operandKey (m n : Nat) (part : String) : actionKey m ≠ operandKey n part := by
  intro h
  have hhead := congrArg (·.toList.head?) h
  simp [actionKey, operandKey] at hhead

theorem operandKey_beq (slot : Nat) (part other : String) :
    (operandKey slot part == operandKey slot other) = (part == other) := by
  rw [Bool.eq_iff_iff, beq_iff_eq, beq_iff_eq]
  exact String.append_right_inj _

/-- The members that the reader of a slot asks for. -/
def slotKeys (slot : Nat) : List String :=
  [actionKey slot, operandKey slot "Type", operandKey slot "Key",
    operandKey slot "MultiplyFormat", operandKey slot "Index"]

/-- Members that the reader of a slot cannot tell apart. -/
def SameAt (slot : Nat) (members members' : Members) : Prop :=
  ∀ key ∈ slotKeys slot, Json.member members key = Json.member members' key

section Slot

variable {members members' : Members} {slot : Nat}

theorem readSlot_congr {α : Type} [Arithmetic α] (h : SameAt slot members members') :
    (readSlot members slot : Except Rejection (Option (Operation α))) = readSlot members' slot := by
  simp only [SameAt, slotKeys, List.forall_mem_cons] at h
  obtain ⟨haction, htype, hkey, hform, hindex, -⟩ := h
  simp only [readSlot, readOperand, readRate, readStepReference, readNumber, haction, htype, hkey,
    hform, hindex]

theorem slotIsUsed_congr (h : SameAt slot members members') :
    slotIsUsed members slot = slotIsUsed members' slot := by
  simp only [SameAt, slotKeys, List.forall_mem_cons] at h
  obtain ⟨haction, htype, -⟩ := h
  rw [slotIsUsed, slotIsUsed, haction, htype]

end Slot

/-- The members of an operation in its slot. -/
def slotMembers (entry : Operation Float × Nat) : Members :=
  (actionKey entry.2, .string entry.1.action.word) :: entry.1.operand.toMembers entry.2

theorem keys_slotMembers (entry : Operation Float × Nat) :
    (slotMembers entry).map (·.1) ⊆ slotKeys entry.2 := by
  obtain ⟨⟨action, operand⟩, slot⟩ := entry
  cases operand <;> simp [slotMembers, Operand.toMembers, slotKeys]

theorem member_cons (key other : String) (value : Json) (rest : Members) :
    Json.member ((key, value) :: rest) other =
      if (other == key) = true then value else Json.member rest other := by
  rw [Json.member, List.lookup_cons]
  cases other == key <;> rfl

/-- Past the action of a slot, its reader sees the members of the operand. -/
theorem member_slotMembers (op : Operation Float) (slot : Nat) (part : String) :
    Json.member (slotMembers (op, slot)) (operandKey slot part) =
      Json.member (op.operand.toMembers slot) (operandKey slot part) := by
  have hother : operandKey slot part ≠ actionKey slot :=
    (actionKey_ne_operandKey slot slot part).symm
  rw [slotMembers, member_cons, if_neg (by simpa using hother)]

theorem readOperand_slotMembers {op : Operation Float} (storable : op.operand.Storable)
    (slot : Nat) :
    (Json.member (slotMembers (op, slot)) (operandKey slot "Type")).isSet = true ∧
      readOperand (slotMembers (op, slot)) slot = .ok op.operand := by
  have hmember := member_slotMembers op slot
  obtain ⟨action, operand⟩ := op
  cases operand with
  | rate key form =>
    have hkey : Text.trim key ≠ "" := storable
    simp only [readOperand, readRate, hmember, Operand.toMembers, member_cons, operandKey_beq]
    cases form <;> simp [Json.text, Json.isSet, RateForm.word, RateForm.ofWord?, hkey]
  | step index =>
    simp only [readOperand, readStepReference, hmember, Operand.toMembers, member_cons,
      operandKey_beq]
    simp [Json.isSet, Json.toInt?]
  | number value =>
    have hfinite : value.isFinite = true := storable
    simp only [readOperand, readNumber, hmember, Operand.toMembers, member_cons, operandKey_beq]
    simp [Json.isSet, Json.toFloat, Arithmetic.ofFloat, hfinite]
  | unsupported => exact storable.elim

/-- An operation is read back from its own members. -/
theorem readSlot_slotMembers {op : Operation Float} (storable : op.Storable) (slot : Nat) :
    readSlot (slotMembers (op, slot)) slot = .ok (some op) := by
  have haction : Json.member (slotMembers (op, slot)) (actionKey slot) =
      .string op.action.word := by
    rw [slotMembers, member_cons, if_pos (beq_self_eq_true _)]
  have hword := Action.ofJson?_eq_some_iff.mpr ⟨storable.action, rfl⟩
  have hset := Action.isSet_word storable.action
  obtain ⟨htype, hread⟩ := readOperand_slotMembers storable.operand slot
  simp only [readSlot, haction, hset, htype, hword, hread]
  rfl

/-! ## Slots side by side -/

/-- No two slots that the reader looks at share a member. -/
theorem slot_eq_of_mem_slotKeys : ∀ m ∈ slots ++ excessSlots, ∀ n ∈ slots ++ excessSlots,
    ∀ key ∈ slotKeys m, key ∈ slotKeys n → m = n := by
  decide +kernel

theorem header_not_mem_slotKeys : ∀ slot ∈ slots ++ excessSlots,
    "baseIndex" ∉ slotKeys slot ∧ "name" ∉ slotKeys slot := by
  decide +kernel

theorem lookup_slotMembers_eq_none {entry : Operation Float × Nat} {key : String}
    (h : key ∉ slotKeys entry.2) : (slotMembers entry).lookup key = none := by
  rw [List.lookup_eq_none_iff]
  intro m hm
  rw [bne_iff_ne]
  rintro rfl
  exact h (keys_slotMembers entry (List.mem_map_of_mem hm))

/-- A member of a slot is looked up among the entries for that slot. -/
theorem lookup_flatMap_slotMembers {slot : Nat} (hslot : slot ∈ slots ++ excessSlots) {key : String}
    (hkey : key ∈ slotKeys slot) {entries : List (Operation Float × Nat)}
    (placed : ∀ entry ∈ entries, entry.2 ∈ slots ++ excessSlots) :
    (entries.flatMap slotMembers).lookup key =
      ((entries.filter (·.2 = slot)).flatMap slotMembers).lookup key := by
  induction entries with
  | nil => rfl
  | cons entry rest ih =>
    rw [List.forall_mem_cons] at placed
    rw [List.flatMap_cons, List.lookup_append, ih placed.2, List.filter_cons]
    by_cases hentry : entry.2 = slot
    · rw [if_pos (by simpa using hentry), List.flatMap_cons, List.lookup_append]
    · have hnone : key ∉ slotKeys entry.2 := fun hmem =>
        hentry (slot_eq_of_mem_slotKeys _ placed.1 _ hslot key hmem hkey)
      rw [if_neg (by simpa using hentry), lookup_slotMembers_eq_none hnone, Option.none_or]

/-- The entry that a numbering gives to a number, if there is one. -/
theorem filter_zipIdx {β : Type} {items : List β} {number : Nat} :
    ∀ {start : Nat}, start ≤ number → (items.zipIdx start).filter (·.2 = number) =
      items[number - start]?.toList.map fun item => (item, number) := by
  induction items with
  | nil => intros; rfl
  | cons item rest ih =>
    intro start hstart
    rw [List.zipIdx_cons, List.filter_cons]
    by_cases hnumber : start = number
    · have hlater : (rest.zipIdx (start + 1)).filter (·.2 = number) = [] := by
        rw [List.filter_eq_nil_iff]
        intro entry hentry heq
        have hle := List.le_snd_of_mem_zipIdx hentry
        have hsame : entry.2 = number := by simpa using heq
        omega
      rw [if_pos (by simpa using hnumber), hlater, hnumber, Nat.sub_self]
      rfl
    · have hindex : number - start = number - (start + 1) + 1 := by omega
      rw [if_neg (by simpa using hnumber), ih (by omega), hindex, List.getElem?_cons_succ]

theorem slot_of_mem_zipIdx {operations : List (Operation Float)}
    (few : operations.length ≤ maxOperations) :
    ∀ entry ∈ operations.zipIdx 1, entry.2 ∈ slots ++ excessSlots := by
  intro entry hentry
  have hle := List.le_snd_of_mem_zipIdx hentry
  have hlt := List.snd_lt_add_of_mem_zipIdx hentry
  unfold maxOperations at few
  simp only [slots, excessSlots, List.cons_append, List.nil_append, List.mem_cons]
  omega

theorem filterMap_slots {operations : List (Operation Float)}
    (few : operations.length ≤ maxOperations) :
    (slots.map fun slot => operations[slot - 1]?).filterMap id = operations := by
  match operations, few with
  | [], _ => rfl
  | [_], _ => rfl
  | [_, _], _ => rfl
  | [_, _, _], _ => rfl
  | _ :: _ :: _ :: _ :: rest, few =>
    simp only [maxOperations, List.length_cons] at few
    omega

/-! ## A written step -/

/-- The member of a name, left out for null. -/
def nameMembers : Json → Members
  | .null => []
  | name => [("name", name)]

theorem Step.toMembers_eq (step : Step Float) :
    step.toMembers = ("baseIndex", .int step.baseIndex) ::
      (nameMembers step.name ++ (step.operations.zipIdx 1).flatMap slotMembers) := rfl

section Written

variable {step : Step Float}

theorem Step.member_baseIndex : Json.member step.toMembers "baseIndex" = .int step.baseIndex := by
  rw [Step.toMembers_eq, member_cons, if_pos (beq_self_eq_true _)]

theorem Step.member_name (few : step.operations.length ≤ maxOperations) :
    Json.member step.toMembers "name" = step.name := by
  have hslots : ((step.operations.zipIdx 1).flatMap slotMembers).lookup "name" = none := by
    rw [List.lookup_eq_none_iff]
    intro m hm
    obtain ⟨entry, hentry, hm⟩ := List.mem_flatMap.mp hm
    rw [bne_iff_ne]
    intro hname
    have hheader := (header_not_mem_slotKeys _ (slot_of_mem_zipIdx few entry hentry)).2
    exact hheader (hname ▸ keys_slotMembers entry (List.mem_map_of_mem hm))
  rw [Step.toMembers_eq, member_cons, if_neg (by decide), Json.member, List.lookup_append, hslots,
    Option.or_none]
  cases step.name <;> rfl

/-- A slot of a written step holds the members of its operation, and nothing without one. -/
theorem Step.sameAt_toMembers (few : step.operations.length ≤ maxOperations) {slot : Nat}
    (hslot : slot ∈ slots ++ excessSlots) :
    SameAt slot step.toMembers
      (step.operations[slot - 1]?.toList.flatMap fun op => slotMembers (op, slot)) := by
  intro key hkey
  have hbase : key ≠ "baseIndex" := fun h => (header_not_mem_slotKeys slot hslot).1 (h ▸ hkey)
  have hname : (nameMembers step.name).lookup key = none := by
    have hne : key ≠ "name" := fun h => (header_not_mem_slotKeys slot hslot).2 (h ▸ hkey)
    cases step.name <;> simp [nameMembers, hne]
  have hpositive : ∀ n ∈ slots ++ excessSlots, 1 ≤ n := by decide
  have hlookup := lookup_flatMap_slotMembers hslot hkey (slot_of_mem_zipIdx few)
  rw [filter_zipIdx (hpositive slot hslot), List.flatMap_map] at hlookup
  rw [Step.toMembers_eq, member_cons, if_neg (by simpa using hbase), Json.member, Json.member,
    List.lookup_append, hname, Option.none_or, hlookup]

/-- A slot of a written step is read as its operation, if it has one; the first slot has. -/
theorem Step.readSlot_toMembers (storable : step.Storable) {slot : Nat} (hslot : slot ∈ slots) :
    readSlot step.toMembers slot = .ok step.operations[slot - 1]? := by
  rw [readSlot_congr (Step.sameAt_toMembers storable.few (List.mem_append_left _ hslot))]
  cases hop : step.operations[slot - 1]? with
  | none =>
    have hfirst : slot ≠ 1 := by
      rintro rfl
      exact storable.nonempty (by simpa using hop)
    simp [readSlot, Json.member, Json.isSet, hfirst]
  | some op =>
    have hstorable := storable.operations op (List.mem_of_getElem? hop)
    simpa using readSlot_slotMembers hstorable slot

theorem Step.slotIsUsed_toMembers (few : step.operations.length ≤ maxOperations) {slot : Nat}
    (hslot : slot ∈ excessSlots) : slotIsUsed step.toMembers slot = false := by
  have hbeyond : ∀ n ∈ excessSlots, maxOperations ≤ n - 1 := by decide
  rw [slotIsUsed_congr (Step.sameAt_toMembers few (List.mem_append_right _ hslot)),
    List.getElem?_eq_none (Nat.le_trans few (hbeyond slot hslot))]
  rfl

theorem Step.ofMembers_toMembers (storable : step.Storable) :
    Step.ofMembers step.toMembers = .ok step := by
  have hexcess : excessSlots.find? (slotIsUsed step.toMembers) = none := by
    rw [List.find?_eq_none]
    intro slot hslot
    rw [Step.slotIsUsed_toMembers storable.few hslot]
    exact Bool.false_ne_true
  have hslots : slots.mapM (readSlot step.toMembers) =
      .ok (slots.map fun slot => step.operations[slot - 1]?) := by
    rw [mapM_eq_ok_iff, List.forall₂_map_right_iff, List.forall₂_same]
    exact fun slot hslot => Step.readSlot_toMembers storable hslot
  have hname : step.name.orNull = step.name := by
    unfold Json.orNull
    rcases storable.name with h | h <;> simp [h]
  simp only [Step.ofMembers, Step.member_baseIndex, Json.toInt?, hexcess, hslots,
    Step.member_name storable.few, hname, ok_bind, filterMap_slots storable.few]
  rfl

end Written

/-! ## A step that was read -/

section Read

variable {members : Members} {slot : Nat}

theorem Operand.WrittenIn.storable {operand : Operand Float}
    (h : operand.WrittenIn members slot) : operand.Storable := by
  cases h with
  | rate _ _ notBlank => exact notBlank
  | step => exact trivial
  | number _ _ _ finite => exact finite

theorem Step.WrittenAs.storable {step : Step Float} (h : step.WrittenAs members) :
    step.Storable := by
  refine ⟨h.nonempty, h.few, fun op hop => ?_, ?_⟩
  · obtain ⟨slot, hslot⟩ := h.exists_slot op hop
    exact ⟨hslot.known, hslot.operand.storable⟩
  · rw [h.name]
    unfold Json.orNull
    by_cases hset : (Json.member members "name").isSet = true
    · rw [if_pos hset]
      exact .inr hset
    · rw [if_neg hset]
      exact .inl rfl

end Read

theorem Step.ofRaw_storable {raw : Json} {sequence : String} {index : Int} {step : Step Float}
    (h : Step.ofRaw raw sequence index = .ok step) : step.Storable := by
  obtain ⟨members, -, hread⟩ := Step.ofRaw_ok h
  exact (Step.ofMembers_eq_ok_iff.mp hread).storable

/-! ## There and back -/

theorem Step.ofRaw_toRaw {step : Step Float} (storable : step.Storable) (sequence : String)
    (index : Int) : Step.ofRaw step.toRaw sequence index = .ok step := by
  show (Step.ofMembers step.toMembers).mapError _ = _
  rw [Step.ofMembers_toMembers storable]
  rfl

theorem stepsOfRaw_toRaw (sequence : String) {steps : List (Step Float)} :
    ∀ (position : Nat), (∀ step ∈ steps, step.Storable) →
      stepsOfRaw sequence position (steps.map Step.toRaw) = .ok steps := by
  induction steps with
  | nil => intros; rfl
  | cons step rest ih =>
    intro position storable
    rw [List.forall_mem_cons] at storable
    rw [List.map_cons, stepsOfRaw, Step.ofRaw_toRaw storable.1, ok_bind, ih _ storable.2]
    rfl

theorem sequenceOfRaw_toRaw {raw : Json} {sequence : String} {steps : List (Step Float)}
    (h : sequenceOfRaw raw sequence = .ok steps) (sequence' : String) :
    sequenceOfRaw (.array (steps.map Step.toRaw)) sequence' = .ok steps := by
  have storable : ∀ step ∈ steps, step.Storable := by
    rcases sequenceOfRaw_cases h with ⟨-, rfl⟩ | ⟨elements, -, hread, -⟩
    · simp
    · exact forall_mem_stepsOfRaw (fun _ _ _ => Step.ofRaw_storable) hread
  have hcheck := checkValid_of_valid (valid_of_sequenceOfRaw h) sequence'
  rw [sequenceOfRaw, stepsOfRaw_toRaw sequence' 0 storable, ok_bind, hcheck]
  rfl

/-- A step that can be written is read back from its persisted form, under any name and at any
place; whatever was read can be written, so a second reading returns what the first one did; and a
sequence that was accepted is accepted again, as the same steps. -/
theorem storable_roundTrip :
    (∀ step : Step Float, step.Storable → ∀ sequence index,
      Step.ofRaw step.toRaw sequence index = .ok step) ∧
    (∀ raw sequence index (step : Step Float), Step.ofRaw raw sequence index = .ok step →
      step.Storable ∧
        ∀ sequence' index', Step.ofRaw step.toRaw sequence' index' = .ok step) ∧
    ∀ raw sequence (steps : List (Step Float)), sequenceOfRaw raw sequence = .ok steps →
      ∀ sequence', sequenceOfRaw (.array (steps.map Step.toRaw)) sequence' = .ok steps := by
  refine ⟨fun step storable => Step.ofRaw_toRaw storable, fun raw sequence index step h => ?_,
    fun raw sequence steps h => sequenceOfRaw_toRaw h⟩
  have storable := Step.ofRaw_storable h
  exact ⟨storable, Step.ofRaw_toRaw storable⟩

/-- A step with its second slot left out, a numeric key, numerals and a blank name. -/
def looseStep : Json :=
  .object [("baseIndex", .string " -1 "), ("name", .string ""), ("action1", .string "multiply"),
    ("operand1Type", .string "markup"), ("operand1Key", .int 5), ("action3", .string "subtract"),
    ("operand3Type", .string "number"), ("operand3Key", .string "0")]

def tightStep : Step Float :=
  ⟨-1, [⟨.multiply, .rate "5" .direct⟩, ⟨.subtract, .number 0⟩], .null⟩

theorem storable_roundTrip_looseStep :
    Step.ofRaw looseStep "раб" 0 = .ok tightStep ∧ tightStep.Storable ∧
      Step.ofRaw tightStep.toRaw "мат" 2 = .ok tightStep ∧
      sequenceOfRaw (.array [looseStep]) "раб" = .ok [tightStep] ∧
      sequenceOfRaw (.array [tightStep.toRaw]) "мат" = .ok [tightStep] := by
  obtain ⟨written, read, sequences⟩ := storable_roundTrip
  have hstep : Step.ofRaw looseStep "раб" 0 = .ok tightStep := rfl
  have hsequence : sequenceOfRaw (.array [looseStep]) "раб" = .ok [tightStep] := rfl
  have storable := (read _ _ _ _ hstep).1
  exact ⟨hstep, storable, written _ storable "мат" 2, hsequence,
    sequences _ _ _ hsequence "мат"⟩

end Markup
end TenderPricing
