import TenderPricing.Keyed
import TenderPricing.Markup.Validity
/-!
Steps in their persisted form.

A persisted step is an object with `baseIndex`, a `name` and up to three slots; slot `n` holds
`action<n>`, `operand<n>Type` and the members that the type asks for.  `Step.ofRaw` reads one,
`Step.toRaw` writes one, and `sequenceOfRaw` reads and checks a whole sequence.
-/
namespace TenderPricing
namespace Markup

variable {α : Type}

/-- Why raw steps give no sequence. -/
inductive LoadError where
  | config (error : ConfigError)
  /-- A literal that is a whole number beyond the range of doubles. -/
  | number (fault : NumberFault)
  | notIterable (kind : String)
  | noEntries (kind : String)
  /-- An entry that is no pair of a key and a value. -/
  | notAPair (position length : Nat)
  | notASequence (position : Nat)
  /-- A key that is a list or an object. -/
  | noKey (kind : String)

namespace LoadError

def message : LoadError → String
  | config error => error.message
  | number fault => fault.message
  | notIterable kind => "'" ++ kind ++ "' object is not iterable"
  | noEntries kind => "'" ++ kind ++ "' object has no attribute 'items'"
  | notAPair position length =>
    "dictionary update sequence element #" ++ toString position ++ " has length " ++
      toString length ++ "; 2 is required"
  | notASequence position =>
    "cannot convert dictionary update sequence element #" ++ toString position ++ " to a sequence"
  | noKey kind => "unhashable type: '" ++ kind ++ "'"

end LoadError

/-- Why a raw step was rejected, before its place is known. -/
inductive Rejection where
  | fault (f : Fault)
  | number (f : NumberFault)

namespace Rejection

def locate (sequence : String) (step : Int) : Rejection → LoadError
  | fault f => .config ⟨sequence, some step, f⟩
  | number f => .number f

end Rejection

/-- The members of a persisted object. -/
abbrev Members := List (String × Json)

/-- A rate needs a key that is not blank. -/
def readRate (members : Members) (slot : Nat) : Except Rejection (Operand α) :=
  let key := Json.member members (operandKey slot "Key")
  let form := Json.member members (operandKey slot "MultiplyFormat")
  match key with
  | .null => .error (.fault (.noRateKey slot key))
  | _ =>
    if Text.trim key.text = "" then .error (.fault (.noRateKey slot key))
    else if !form.isSet then .ok (.rate key.text .direct)
    else match form with
      | .string word => match RateForm.ofWord? word with
        | some f => .ok (.rate key.text f)
        | none => .error (.fault (.unknownForm form))
      | _ => .error (.fault (.unknownForm form))

def readStepReference (members : Members) (slot : Nat) : Except Rejection (Operand α) :=
  let index := Json.member members (operandKey slot "Index")
  match index.toInt? with
  | some n => .ok (.step n)
  | none => .error (.fault (.noStepIndex slot index))

/-- A literal must be finite and no truth value. -/
def readNumber [Arithmetic α] (members : Members) (slot : Nat) : Except Rejection (Operand α) :=
  let key := Json.member members (operandKey slot "Key")
  match key, key.toFloat with
  | _, .error .tooLarge => .error (.number .tooLarge)
  | .bool _, _ | _, .error _ => .error (.fault (.notANumber slot key))
  | _, .ok x =>
    if x.isFinite then .ok (.number (Arithmetic.ofFloat x))
    else .error (.fault (.notANumber slot key))

def readOperand [Arithmetic α] (members : Members) (slot : Nat) :
    Except Rejection (Operand α) :=
  match Json.member members (operandKey slot "Type") with
  | .string "markup" => readRate members slot
  | .string "step" => readStepReference members slot
  | .string "number" => readNumber members slot
  | type => .error (.fault (.unknownOperandType type))

/-- The operation of a slot, none if the slot is empty.  The first slot may not be. -/
def readSlot [Arithmetic α] (members : Members) (slot : Nat) :
    Except Rejection (Option (Operation α)) :=
  let action := Json.member members (actionKey slot)
  let type := Json.member members (operandKey slot "Type")
  match action.isSet, type.isSet with
  | false, false => if slot = 1 then .error (.fault .noFirstOperation) else .ok none
  | false, true => .error (.fault (.noAction slot))
  | true, false => .error (.fault (.noOperandType slot))
  | true, true => match Action.ofJson? action with
    | none => .error (.fault (.unknownAction action))
    | some known => (readOperand members slot).map fun operand => some ⟨known, operand⟩

/-- The slots that a step has, and two more that must stay empty. -/
def slots : List Nat := [1, 2, 3]

def excessSlots : List Nat := [4, 5]

def slotIsUsed (members : Members) (slot : Nat) : Bool :=
  (Json.member members (actionKey slot)).isSet ||
    (Json.member members (operandKey slot "Type")).isSet

namespace Step

/-- Reads the members of a persisted step. -/
def ofMembers [Arithmetic α] (members : Members) : Except Rejection (Step α) :=
  let base := Json.member members "baseIndex"
  match base.toInt? with
  | none => .error (.fault (.noBaseIndex base))
  | some baseIndex =>
    match excessSlots.find? (slotIsUsed members) with
    | some slot => .error (.fault (.tooManySlots slot))
    | none => do
      let operations ← slots.mapM (readSlot members)
      return ⟨baseIndex, operations.filterMap id, (Json.member members "name").orNull⟩

/-- Reads a persisted step. -/
def ofRaw [Arithmetic α] (raw : Json) (sequence : String) (index : Int) :
    Except LoadError (Step α) :=
  let read := match raw with
    | .object members => ofMembers members
    | other => .error (.fault (.notAnObject other))
  read.mapError (Rejection.locate sequence index)

end Step

namespace Operand

/-- The members that describe the operand of a slot. -/
def toMembers (slot : Nat) : Operand Float → Members
  | rate key form =>
    [(operandKey slot "Type", .string "markup"), (operandKey slot "Key", .string key),
      (operandKey slot "MultiplyFormat", .string form.word)]
  | step index =>
    [(operandKey slot "Type", .string "step"), (operandKey slot "Index", .int index)]
  | number value =>
    [(operandKey slot "Type", .string "number"), (operandKey slot "Key", .float value)]
  | unsupported => [(operandKey slot "Type", .string "number"), (operandKey slot "Key", .null)]

end Operand

namespace Step

/-- The members of the persisted form. -/
def toMembers (step : Step Float) : Members :=
  ("baseIndex", .int step.baseIndex) ::
    (match step.name with
      | .null => []
      | name => [("name", name)]) ++
    (step.operations.zipIdx 1).flatMap fun (op, slot) =>
      (actionKey slot, .string op.action.word) :: op.operand.toMembers slot

/-- The persisted form. -/
def toRaw (step : Step Float) : Json := .object step.toMembers

end Step

/-- Reads the raw steps of a sequence whose first step is at `position`. -/
def stepsOfRaw [Arithmetic α] (sequence : String) (position : Nat) :
    List Json → Except LoadError (List (Step α))
  | [] => .ok []
  | raw :: rest => do
    let step ← Step.ofRaw raw sequence position
    let later ← stepsOfRaw sequence (position + 1) rest
    return step :: later

/-- Reads and checks a sequence.  Null is the empty sequence. -/
def sequenceOfRaw [Arithmetic α] (raw : Json) (sequence : String) :
    Except LoadError (List (Step α)) :=
  match raw with
  | .null => .ok []
  | .array elements => do
    let steps ← stepsOfRaw sequence 0 elements
    (checkValid steps sequence).mapError .config
    return steps
  | .string _ | .object _ => .error (.config ⟨sequence, none, .notAList raw⟩)
  | other => .error (.notIterable other.kind)

/-- Sequences by the item type that they price. -/
abbrev Sequences (α : Type) := List (String × List (Step α))

def sequencesOfMembers [Arithmetic α] : Members → Except LoadError (Sequences α)
  | [] => .ok []
  | (type, raw) :: rest => do
    let steps ← sequenceOfRaw raw type
    let later ← sequencesOfMembers rest
    return (type, steps) :: later

/-- Reads the sequences of a tactic.  Anything that counts as empty holds none. -/
def sequencesOfRaw [Arithmetic α] (raw : Json) : Except LoadError (Sequences α) :=
  if raw.isSet then
    match raw with
    | .object members => sequencesOfMembers members
    | other => .error (.noEntries other.kind)
  else .ok []

/-- The key and the value of an entry given as a pair. -/
def readPair (position : Nat) : Json → Except LoadError (String × Json)
  | .array [key, value] => match key with
    | .array _ | .object _ => .error (.noKey key.kind)
    | _ => .ok (key.text, value)
  | .array elements => .error (.notAPair position elements.length)
  | .object [(key, _), (other, _)] => .ok (key, .string other)
  | .object members => .error (.notAPair position members.length)
  | .string s => match s.toList with
    | [key, value] => .ok (key.toString, .string value.toString)
    | chars => .error (.notAPair position chars.length)
  | _ => .error (.notASequence position)

def readPairs : Nat → List Json → Except LoadError (List (String × Json))
  | _, [] => .ok []
  | position, raw :: rest => do
    let entry ← readPair position raw
    let later ← readPairs (position + 1) rest
    return entry :: later

/-- Reads entries given as an object or as a list of pairs.  Anything that counts as empty holds
none. -/
def entriesOfRaw (raw : Json) : Except LoadError Members :=
  if raw.isSet then
    match raw with
    | .object members => .ok members
    | .array elements => (readPairs 0 elements).map Keyed.ofList
    | .string s => (readPairs 0 (s.toList.map fun c => .string c.toString)).map Keyed.ofList
    | other => .error (.notIterable other.kind)
  else .ok []

end Markup
end TenderPricing
