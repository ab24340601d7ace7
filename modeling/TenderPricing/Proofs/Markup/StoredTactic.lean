import TenderPricing.Pricing.Tactic
import TenderPricing.Proofs.Markup.Rejection
/-!
Tactics of any shape.

The columns of a stored tactic may hold any value.  What is no sequence is blamed where the loader
looks for it: text and objects in place of a list, and places of a list where no step stands.  It
does not look for everything.  Reading breaks off, without blame, at a truth value or a number in
place of a list, at a literal beyond the range of doubles, at sequences that are no object, and at
base costs that are no entries.
-/
namespace TenderPricing
namespace Markup

def LoadError.IsConfig (e : LoadError) : Prop := ∃ fault, e = .config fault

/-- Where a reader either blames or breaks off, an error without blame means the latter. -/
theorem breaks_of_ends {β : Type} {outcome : Except LoadError β} {written : β → Prop}
    {blames : ConfigError → Prop} {breaks : Prop}
    (hends : Ends written
      (fun e => (∃ fault, e = .config fault ∧ blames fault) ∨ (¬ e.IsConfig ∧ breaks)) outcome)
    (h : ∃ e, outcome = .error e ∧ ¬ e.IsConfig) : breaks := by
  obtain ⟨e, herror, hconfig⟩ := h
  rcases hends.error herror with ⟨fault, hfault, -⟩ | ⟨-, hbreaks⟩
  · exact absurd ⟨fault, hfault⟩ hconfig
  · exact hbreaks

/-! ## One sequence -/

/-- The value is a sequence: null, or a list of objects with a step at each place. -/
inductive IsSequence : Json → Prop
  | null : IsSequence .null
  | list {objects : List Members}
      (steps : ∀ i members, objects[i]? = some members → IsStep i members) :
      IsSequence (.array (objects.map .object))

/-- Reading a list comes to a literal beyond the range of doubles: all before it write steps. -/
def BreaksOff (raws : List Json) : Prop :=
  ∃ (i : Nat) (members : Members), raws[i]? = some (.object members) ∧ Breaks members ∧
    ∀ j earlier, j < i → raws[j]? = some earlier → WritesStep earlier

/-- A value in place of a sequence at which reading breaks off. -/
inductive SequenceBreaks : Json → Prop
  | bool (b : Bool) : SequenceBreaks (.bool b)
  | int (n : Int) : SequenceBreaks (.int n)
  | float (x : Float) : SequenceBreaks (.float x)
  | list {raws : List Json} (breaks : BreaksOff raws) : SequenceBreaks (.array raws)

/-- How a value is blamed that stands under a name in place of a sequence. -/
inductive Blames (name : String) : Json → ConfigError → Prop
  | text (s : String) : Blames name (.string s) ⟨name, none, .notAList (.string s)⟩
  | object (members : Members) :
      Blames name (.object members) ⟨name, none, .notAList (.object members)⟩
  | place {raws : List Json} {e : ConfigError} {i : Nat} {raw : Json} (get : raws[i]? = some raw)
      (noStep : ∀ members, raw = .object members → ¬ IsStep i members)
      (sequence : e.sequence = name) (step : e.step = some (i : Int)) : Blames name (.array raws) e

section Sequence

variable {name : String} {raw : Json} {raws : List Json}

theorem exists_objects_of_stepsOfRaw :
    ∀ {position : Nat} {steps : List (Step Float)}, stepsOfRaw name position raws = .ok steps →
      ∃ objects : List Members, raws = objects.map .object := by
  induction raws with
  | nil => exact fun _ => ⟨[], rfl⟩
  | cons raw rest ih =>
    intro position steps h
    rw [stepsOfRaw, bind_eq_ok_iff] at h
    obtain ⟨step, hstep, h⟩ := h
    rw [bind_eq_ok_iff] at h
    obtain ⟨later, hlater, -⟩ := h
    obtain ⟨members, hmembers, -⟩ := exists_ofRaw_iff.mp ⟨step, hstep⟩
    obtain ⟨objects, hobjects⟩ := ih hlater
    exact ⟨members :: objects, by rw [hmembers, hobjects, List.map_cons]⟩

theorem stepsOfRaw_error {e : LoadError}
    (h : (stepsOfRaw name 0 raws : Except LoadError (List (Step Float))) = .error e) :
    (∃ fault, e = .config fault ∧ Blames name (.array raws) fault) ∨
      (¬ e.IsConfig ∧ BreaksOff raws) := by
  obtain ⟨i, raw, hget, hbefore, herror⟩ := stepsOfRaw_eq_error_iff.mp h
  have hblamed : ∀ f, e = .config ⟨name, some i, f⟩ →
      (∀ members, raw = .object members → ¬ IsStep i members) →
      ∃ fault, e = .config fault ∧ Blames name (.array raws) fault :=
    fun f he noStep => ⟨_, he, .place hget noStep rfl rfl⟩
  cases raw with
  | object members =>
    obtain ⟨rejection, hread, hlocate⟩ := mapError_eq_error_iff.mp herror
    change Step.ofMembers members = .error rejection at hread
    cases rejection with
    | fault f =>
      refine .inl (hblamed f hlocate.symm ?_)
      intro found hfound hstep
      cases hfound
      obtain ⟨step, hwritten, -⟩ := exists_step_of_isStep hstep
      rw [Step.ofMembers_eq_ok_iff.mpr hwritten] at hread
      cases hread
    | number f =>
      refine .inr ⟨?_, i, members, hget, (Step.ofMembers_eq_number_iff.mp hread).2, hbefore⟩
      intro hconfig
      obtain ⟨fault, hfault⟩ := hconfig
      rw [hfault] at hlocate
      cases hlocate
  | _ =>
    cases herror
    exact .inl (hblamed _ rfl fun members hmembers => nomatch hmembers)

theorem stepsOfRaw_of_breaksOff (h : BreaksOff raws) :
    (stepsOfRaw name 0 raws : Except LoadError (List (Step Float))) =
      .error (.number .tooLarge) := by
  obtain ⟨i, members, hget, hbreaks, hbefore⟩ := h
  refine stepsOfRaw_eq_error_iff.mpr ⟨i, _, hget, hbefore, ?_⟩
  exact mapError_eq_error_iff.mpr
    ⟨_, Step.ofMembers_eq_number_iff.mpr ⟨rfl, hbreaks⟩, rfl⟩

theorem sequenceOfRaw_ends (name : String) (raw : Json) :
    Ends (fun _ : List (Step Float) => IsSequence raw)
      (fun e => (∃ fault, e = .config fault ∧ Blames name raw fault) ∨
        (¬ e.IsConfig ∧ SequenceBreaks raw))
      (sequenceOfRaw raw name) := by
  cases raw with
  | null => exact .null
  | bool b => exact .inr ⟨by simp [LoadError.IsConfig], .bool b⟩
  | int n => exact .inr ⟨by simp [LoadError.IsConfig], .int n⟩
  | float x => exact .inr ⟨by simp [LoadError.IsConfig], .float x⟩
  | string s => exact .inl ⟨_, rfl, .text s⟩
  | object members => exact .inl ⟨_, rfl, .object members⟩
  | array raws =>
    cases hsteps : (stepsOfRaw name 0 raws : Except LoadError (List (Step Float))) with
    | error e =>
      rw [sequenceOfRaw, hsteps]
      rcases stepsOfRaw_error hsteps with hblamed | ⟨hconfig, hbreaks⟩
      · exact .inl hblamed
      · exact .inr ⟨hconfig, .list hbreaks⟩
    | ok steps =>
      obtain ⟨objects, hobjects⟩ := exists_objects_of_stepsOfRaw hsteps
      subst hobjects
      show Ends _ _ (loadObjects name objects)
      cases hloaded : loadObjects name objects with
      | ok found =>
        obtain ⟨hwritten, valid⟩ := loadObjects_eq_ok_iff.mp hloaded
        exact .list ((valid_iff_isStep hwritten).mp valid)
      | error e =>
        rcases loadObjects_eq_error_iff.mp hloaded with herror | ⟨_, fault, -, -, rfl⟩
        · cases hsteps.symm.trans herror
        · obtain ⟨i, members, hget, hno, hsequence, hstep⟩ := blamesStep_of_config hloaded
          have hplace : (objects.map Json.object)[i]? = some (.object members) := by
            rw [List.getElem?_map, hget]
            rfl
          refine .inl ⟨fault, rfl, .place hplace (fun found hfound => ?_) hsequence hstep⟩
          cases hfound
          exact hno

theorem exists_sequenceOfRaw_iff :
    (∃ steps : List (Step Float), sequenceOfRaw raw name = .ok steps) ↔ IsSequence raw := by
  constructor
  · intro h
    obtain ⟨steps, hsteps⟩ := h
    exact (sequenceOfRaw_ends name raw).ok hsteps
  · intro h
    cases h with
    | null => exact ⟨[], rfl⟩
    | list hsteps =>
      obtain ⟨steps, hwritten⟩ := exists_steps_of_isStep hsteps
      exact ⟨steps, loadObjects_eq_ok_iff.mpr ⟨hwritten, (valid_iff_isStep hwritten).mpr hsteps⟩⟩

theorem sequenceBreaks_iff :
    SequenceBreaks raw ↔
      ∃ e, (sequenceOfRaw raw name : Except LoadError (List (Step Float))) = .error e ∧
        ¬ e.IsConfig := by
  constructor
  · intro h
    cases h with
    | list breaks =>
      refine ⟨.number .tooLarge, ?_, by simp [LoadError.IsConfig]⟩
      rw [sequenceOfRaw, stepsOfRaw_of_breaksOff breaks]
      rfl
    | _ => exact ⟨_, rfl, by simp [LoadError.IsConfig]⟩
  · exact breaks_of_ends (sequenceOfRaw_ends name raw)

end Sequence

/-! ## The sequences of a tactic -/

/-- The value holds sequences: it counts as empty, or each of its members is one. -/
inductive AreSequences : Json → Prop
  | empty {raw : Json} (unset : raw.isSet = false) : AreSequences raw
  | members {members : Members} (sequences : ∀ entry ∈ members, IsSequence entry.2) :
      AreSequences (.object members)

/-- A value in place of sequences at which reading breaks off. -/
inductive SequencesBreak : Json → Prop
  | noObject {raw : Json} (set : raw.isSet = true) (noObject : ∀ members, raw ≠ .object members) :
      SequencesBreak raw
  | member {members : Members} {i : Nat} {entry : String × Json} (get : members[i]? = some entry)
      (before : ∀ j earlier, j < i → members[j]? = some earlier → IsSequence earlier.2)
      (breaks : SequenceBreaks entry.2) : SequencesBreak (.object members)

/-- How a value is blamed that stands in place of sequences: for its first member that is none. -/
inductive BlamesMember : Json → ConfigError → Prop
  | member {members : Members} {e : ConfigError} {i : Nat} {entry : String × Json}
      (get : members[i]? = some entry)
      (before : ∀ j earlier, j < i → members[j]? = some earlier → IsSequence earlier.2)
      (blames : Blames entry.1 entry.2 e) : BlamesMember (.object members) e

section Sequences

variable {raw : Json} {members : Members}

def readEntry (entry : String × Json) : Except LoadError (String × List (Step Float)) :=
  (sequenceOfRaw entry.2 entry.1).map (entry.1, ·)

theorem sequencesOfMembers_eq_mapM :
    (sequencesOfMembers members : Except LoadError (Sequences Float)) =
      members.mapM readEntry := by
  induction members with
  | nil => rfl
  | cons entry rest ih =>
    obtain ⟨type, raw⟩ := entry
    rw [sequencesOfMembers, List.mapM_cons, ← ih, readEntry]
    cases (sequenceOfRaw raw type : Except LoadError (List (Step Float))) <;> rfl

theorem exists_readEntry_iff {entry : String × Json} :
    (∃ value, readEntry entry = .ok value) ↔ IsSequence entry.2 := by
  rw [← exists_sequenceOfRaw_iff, readEntry]
  cases (sequenceOfRaw entry.2 entry.1 : Except LoadError (List (Step Float))) <;>
    simp [Except.map]

theorem readEntry_eq_error_iff {entry : String × Json} {e : LoadError} :
    readEntry entry = .error e ↔
      (sequenceOfRaw entry.2 entry.1 : Except LoadError (List (Step Float))) = .error e :=
  map_eq_error_iff

/-- Sequences are read one after the other, and the first that is none decides. -/
theorem sequencesOfMembers_eq_error_iff {e : LoadError} :
    (sequencesOfMembers members : Except LoadError (Sequences Float)) = .error e ↔
      ∃ (i : Nat) (entry : String × Json), members[i]? = some entry ∧
        (∀ j earlier, j < i → members[j]? = some earlier → IsSequence earlier.2) ∧
        (sequenceOfRaw entry.2 entry.1 : Except LoadError (List (Step Float))) = .error e := by
  rw [sequencesOfMembers_eq_mapM, mapM_eq_error_iff]
  simp only [exists_readEntry_iff, readEntry_eq_error_iff]

theorem exists_sequencesOfMembers_iff :
    (∃ found : Sequences Float, sequencesOfMembers members = .ok found) ↔
      ∀ entry ∈ members, IsSequence entry.2 := by
  simp only [sequencesOfMembers_eq_mapM, mapM_eq_ok_iff, ← exists_readEntry_iff]
  constructor
  · intro h entry hentry
    obtain ⟨found, hfound⟩ := h
    obtain ⟨value, -, hvalue⟩ := exists_mem_of_forall₂ hfound.flip entry hentry
    exact ⟨value, hvalue⟩
  · exact exists_forall₂

theorem sequencesOfRaw_of_unset (unset : raw.isSet = false) :
    (sequencesOfRaw raw : Except LoadError (Sequences Float)) = .ok [] := by
  simp [sequencesOfRaw, unset]

theorem sequencesOfRaw_object :
    (sequencesOfRaw (.object members) : Except LoadError (Sequences Float)) =
      sequencesOfMembers members := by
  cases members <;> rfl

theorem sequencesOfRaw_of_noObject (set : raw.isSet = true)
    (noObject : ∀ members, raw ≠ .object members) :
    (sequencesOfRaw raw : Except LoadError (Sequences Float)) = .error (.noEntries raw.kind) := by
  cases raw with
  | object members => exact absurd rfl (noObject members)
  | _ => simp [sequencesOfRaw, set]

theorem sequencesOfRaw_ends (raw : Json) :
    Ends (fun _ : Sequences Float => AreSequences raw)
      (fun e => (∃ fault, e = .config fault ∧ BlamesMember raw fault) ∨
        (¬ e.IsConfig ∧ SequencesBreak raw))
      (sequencesOfRaw raw) := by
  by_cases hset : raw.isSet = true
  · by_cases hobject : ∃ members, raw = .object members
    · obtain ⟨members, rfl⟩ := hobject
      rw [sequencesOfRaw_object]
      cases hread : (sequencesOfMembers members : Except LoadError (Sequences Float)) with
      | ok found => exact .members (exists_sequencesOfMembers_iff.mp ⟨found, hread⟩)
      | error e =>
        obtain ⟨i, entry, hget, hbefore, herror⟩ := sequencesOfMembers_eq_error_iff.mp hread
        rcases (sequenceOfRaw_ends entry.1 entry.2).error herror with
          ⟨fault, hfault, hblamed⟩ | ⟨hconfig, hbreaks⟩
        · exact .inl ⟨fault, hfault, .member hget hbefore hblamed⟩
        · exact .inr ⟨hconfig, .member hget hbefore hbreaks⟩
    · have noObject : ∀ members, raw ≠ .object members :=
        fun members hmembers => hobject ⟨members, hmembers⟩
      rw [sequencesOfRaw_of_noObject hset noObject]
      exact .inr ⟨by simp [LoadError.IsConfig], .noObject hset noObject⟩
  · rw [Bool.not_eq_true] at hset
    rw [sequencesOfRaw_of_unset hset]
    exact .empty hset

theorem exists_sequencesOfRaw_iff :
    (∃ found : Sequences Float, sequencesOfRaw raw = .ok found) ↔ AreSequences raw := by
  constructor
  · intro h
    obtain ⟨found, hfound⟩ := h
    exact (sequencesOfRaw_ends raw).ok hfound
  · intro h
    cases h with
    | empty unset => exact ⟨[], sequencesOfRaw_of_unset unset⟩
    | members sequences =>
      rw [sequencesOfRaw_object]
      exact exists_sequencesOfMembers_iff.mpr sequences

theorem sequencesBreak_iff :
    SequencesBreak raw ↔
      ∃ e, (sequencesOfRaw raw : Except LoadError (Sequences Float)) = .error e ∧
        ¬ e.IsConfig := by
  constructor
  · intro h
    cases h with
    | noObject set noObject =>
      exact ⟨_, sequencesOfRaw_of_noObject set noObject, by simp [LoadError.IsConfig]⟩
    | @member members i entry get before breaks =>
      obtain ⟨e, herror, hconfig⟩ := sequenceBreaks_iff.mp breaks
      refine ⟨e, ?_, hconfig⟩
      rw [sequencesOfRaw_object]
      exact sequencesOfMembers_eq_error_iff.mpr ⟨i, entry, get, before, herror⟩
  · exact breaks_of_ends (sequencesOfRaw_ends raw)

end Sequences

/-! ## Base costs -/

/-- The value is an entry: a list of a key and a value, an object with two keys, or two letters. -/
inductive IsPair : Json → Prop
  | list {key value : Json} (noList : ∀ elements, key ≠ .array elements)
      (noObject : ∀ members, key ≠ .object members) : IsPair (.array [key, value])
  | object (first second : String × Json) : IsPair (.object [first, second])
  | text {s : String} {key value : Char} (letters : s.toList = [key, value]) : IsPair (.string s)

/-- The value holds entries: it counts as empty, or is an object or a list of entries. -/
inductive AreEntries : Json → Prop
  | empty {raw : Json} (unset : raw.isSet = false) : AreEntries raw
  | object (members : Members) : AreEntries (.object members)
  | list {elements : List Json} (pairs : ∀ element ∈ elements, IsPair element) :
      AreEntries (.array elements)

section Entries

variable {raw : Json} {elements : List Json}

theorem isPair_of_readPair {position : Nat} {entry : String × Json}
    (h : readPair position raw = .ok entry) : IsPair raw := by
  unfold readPair at h
  split at h
  · next key value =>
    split at h
    · cases h
    · cases h
    · next noList noObject => exact .list noList noObject
  · cases h
  · exact .object _ _
  · cases h
  · split at h
    · next letters => exact .text letters
    · cases h
  · cases h

theorem exists_readPair_of_isPair (h : IsPair raw) (position : Nat) :
    ∃ entry, readPair position raw = .ok entry := by
  cases h with
  | @list key value noList noObject =>
    refine ⟨(key.text, value), ?_⟩
    cases key with
    | array elements => exact absurd rfl (noList elements)
    | object members => exact absurd rfl (noObject members)
    | _ => rfl
  | object first second => exact ⟨_, rfl⟩
  | text letters =>
    simp only [readPair, letters]
    exact ⟨_, rfl⟩

theorem readPair_error {position : Nat} {e : LoadError}
    (h : readPair position raw = .error e) : ¬ e.IsConfig := by
  intro hconfig
  obtain ⟨fault, rfl⟩ := hconfig
  unfold readPair at h
  repeat' split at h
  all_goals cases h

theorem readPairs_ends :
    ∀ position : Nat, Ends (fun _ => ∀ element ∈ elements, IsPair element)
      (fun e => ¬ e.IsConfig ∧ ¬ ∀ element ∈ elements, IsPair element)
      (readPairs position elements) := by
  induction elements with
  | nil => exact fun _ => List.forall_mem_nil _
  | cons raw rest ih =>
    intro position
    simp only [List.forall_mem_cons]
    rw [readPairs]
    cases hfirst : readPair position raw with
    | error e =>
      refine ⟨readPair_error hfirst, fun hpairs => ?_⟩
      obtain ⟨entry, hentry⟩ := exists_readPair_of_isPair hpairs.1 position
      cases hfirst.symm.trans hentry
    | ok entry =>
      have hpair := isPair_of_readPair hfirst
      have hlater := ih (position + 1)
      rw [ok_bind]
      cases hrest : readPairs (position + 1) rest with
      | error e =>
        rw [hrest] at hlater
        exact ⟨hlater.1, fun hpairs => hlater.2 hpairs.2⟩
      | ok found =>
        rw [hrest] at hlater
        exact ⟨hpair, hlater⟩

theorem areEntries_list_iff :
    AreEntries (.array elements) ↔ ∀ element ∈ elements, IsPair element := by
  constructor
  · intro h
    cases h with
    | empty unset =>
      have hempty : elements = [] := by simpa [Json.isSet] using unset
      rw [hempty]
      exact List.forall_mem_nil _
    | list pairs => exact pairs
  · exact .list

theorem areEntries_iff_unset (noList : ∀ elements, raw ≠ .array elements)
    (noObject : ∀ members, raw ≠ .object members) : AreEntries raw ↔ raw.isSet = false := by
  constructor
  · intro h
    cases h with
    | empty unset => exact unset
    | object members => exact absurd rfl (noObject members)
    | list pairs => exact absurd rfl (noList _)
  · exact .empty

theorem entriesOfRaw_object (members : Members) :
    entriesOfRaw (.object members) = .ok members := by
  cases members <;> rfl

theorem entriesOfRaw_list :
    entriesOfRaw (.array elements) = (readPairs 0 elements).map Keyed.ofList := by
  cases elements <;> rfl

theorem entriesOfRaw_unset (unset : raw.isSet = false) : entriesOfRaw raw = .ok [] := by
  simp [entriesOfRaw, unset]

theorem entriesOfRaw_text {s : String} (set : (Json.string s).isSet = true) :
    entriesOfRaw (.string s) = .error (.notAPair 0 1) := by
  have hletters : s.toList ≠ [] := by
    intro hempty
    have hs : s = "" := String.toList_eq_nil_iff.mp hempty
    rw [hs] at set
    cases set
  obtain ⟨c, rest, hs⟩ := List.exists_cons_of_ne_nil hletters
  have hc : c.toString.toList = [c] := by simp
  simp only [entriesOfRaw, if_pos set, hs, List.map_cons, readPairs, readPair, hc]
  rfl

theorem entriesOfRaw_bare (noList : ∀ elements, raw ≠ .array elements)
    (noObject : ∀ members, raw ≠ .object members) (set : raw.isSet = true) :
    ∃ e, entriesOfRaw raw = .error e ∧ ¬ e.IsConfig := by
  cases raw with
  | null => cases set
  | array elements => exact absurd rfl (noList elements)
  | object members => exact absurd rfl (noObject members)
  | string s => exact ⟨_, entriesOfRaw_text set, by simp [LoadError.IsConfig]⟩
  | _ =>
    simp only [entriesOfRaw, if_pos set]
    exact ⟨_, rfl, by simp [LoadError.IsConfig]⟩

theorem entriesOfRaw_ends (raw : Json) :
    Ends (fun _ => AreEntries raw) (fun e => ¬ e.IsConfig ∧ ¬ AreEntries raw)
      (entriesOfRaw raw) := by
  by_cases hobject : ∃ members, raw = .object members
  · obtain ⟨members, rfl⟩ := hobject
    rw [entriesOfRaw_object]
    exact .object members
  · by_cases hlist : ∃ elements, raw = .array elements
    · obtain ⟨elements, rfl⟩ := hlist
      rw [entriesOfRaw_list, areEntries_list_iff]
      exact (readPairs_ends 0).map
    · have noObject : ∀ members, raw ≠ .object members := fun members h => hobject ⟨members, h⟩
      have noList : ∀ elements, raw ≠ .array elements := fun elements h => hlist ⟨elements, h⟩
      rw [areEntries_iff_unset noList noObject]
      cases hset : raw.isSet with
      | false =>
        rw [entriesOfRaw_unset hset]
        exact rfl
      | true =>
        obtain ⟨e, herror, hconfig⟩ := entriesOfRaw_bare noList noObject hset
        rw [herror]
        exact ⟨hconfig, by simp⟩

theorem exists_entriesOfRaw_iff : (∃ costs, entriesOfRaw raw = .ok costs) ↔ AreEntries raw := by
  have hends := entriesOfRaw_ends raw
  cases hread : entriesOfRaw raw with
  | ok costs =>
    rw [hread] at hends
    exact iff_of_true ⟨costs, rfl⟩ hends
  | error e =>
    rw [hread] at hends
    exact iff_of_false (fun h => nomatch h) hends.2

end Entries

/-! ## The whole tactic -/

/-- A stored tactic at which reading breaks off: at its sequences, or at its base costs where the
sequences are in order. -/
inductive TacticBreaks (sequences baseCosts : Json) : Prop
  | sequences (breaks : SequencesBreak sequences)
  | baseCosts (inOrder : AreSequences sequences) (noEntries : ¬ AreEntries baseCosts)

section Tactic

open Pricing

variable {sequences baseCosts : Json} {name : String}

/-- A stored tactic loads, or is blamed for a sequence, or reading breaks off at it. -/
theorem tacticOfRaw_ends (sequences : Json) (name : String) (baseCosts : Json) :
    Ends (fun _ : Tactic Float => AreSequences sequences ∧ AreEntries baseCosts)
      (fun e => (∃ fault, e = .config fault ∧ BlamesMember sequences fault) ∨
        (¬ e.IsConfig ∧ TacticBreaks sequences baseCosts))
      (Tactic.ofRaw sequences name baseCosts) := by
  unfold Tactic.ofRaw
  refine Ends.bind ((sequencesOfRaw_ends sequences).mono (fun _ => id) ?_) fun parsed inOrder => ?_
  · intro e h
    exact h.imp id fun hbreaks => ⟨hbreaks.1, .sequences hbreaks.2⟩
  · refine Ends.bind ((entriesOfRaw_ends baseCosts).mono (fun _ => id) ?_) fun costs entries => ?_
    · intro e h
      exact .inr ⟨h.1, .baseCosts inOrder h.2⟩
    · exact ⟨inOrder, entries⟩

theorem exists_tacticOfRaw_iff :
    (∃ tactic : Tactic Float, Tactic.ofRaw sequences name baseCosts = .ok tactic) ↔
      AreSequences sequences ∧ AreEntries baseCosts := by
  rw [← exists_sequencesOfRaw_iff, ← exists_entriesOfRaw_iff]
  simp only [Tactic.ofRaw, bind_eq_ok_iff, pure_eq_ok_iff]
  constructor
  · intro h
    obtain ⟨_, parsed, hparsed, costs, hcosts, -⟩ := h
    exact ⟨⟨parsed, hparsed⟩, costs, hcosts⟩
  · intro h
    obtain ⟨⟨parsed, hparsed⟩, costs, hcosts⟩ := h
    exact ⟨_, parsed, hparsed, costs, hcosts, rfl⟩

theorem tacticBreaks_iff (name : String) :
    TacticBreaks sequences baseCosts ↔
      ∃ e, (Tactic.ofRaw sequences name baseCosts : Except LoadError (Tactic Float)) = .error e ∧
        ¬ e.IsConfig := by
  constructor
  · intro h
    cases h with
    | sequences breaks =>
      obtain ⟨e, herror, hconfig⟩ := sequencesBreak_iff.mp breaks
      exact ⟨e, bind_eq_error_iff.mpr (.inl herror), hconfig⟩
    | baseCosts inOrder noEntries =>
      obtain ⟨parsed, hparsed⟩ := exists_sequencesOfRaw_iff.mpr inOrder
      cases hcosts : entriesOfRaw baseCosts with
      | ok costs => exact absurd ((entriesOfRaw_ends baseCosts).ok hcosts) noEntries
      | error e =>
        refine ⟨e, ?_, ((entriesOfRaw_ends baseCosts).error hcosts).1⟩
        exact bind_eq_error_iff.mpr (.inr ⟨parsed, hparsed, bind_eq_error_iff.mpr (.inl hcosts)⟩)
  · exact breaks_of_ends (tacticOfRaw_ends sequences name baseCosts)

end Tactic

end Markup
end TenderPricing
