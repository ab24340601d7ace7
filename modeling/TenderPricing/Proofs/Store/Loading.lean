import TenderPricing.Proofs.Markup.StoredTactic
import TenderPricing.Proofs.Store.ItemRun
/-!
How the context of a tender fails to load.

A tender without a tactic is told apart from one whose sequences are blamed.  Both are faults that
callers are told.  A stored value at which reading breaks off, or a setting that names no axis, is
a third kind of failure, of which they are told nothing.
-/
namespace TenderPricing

/-! ## Settings of a distribution -/

namespace Pricing

def IsTarget (raw : Json) : Prop :=
  raw.isSet = false ∨ raw = .string "material" ∨ raw = .string "work"

/-- Both settings of each category name an axis or count as empty. -/
def AreTargets (members : List (String × Json)) : Prop :=
  ∀ c : Category, IsTarget (Json.member members c.baseKey) ∧
    IsTarget (Json.member members c.markupKey)

theorem Axis.isSome_ofWord?_iff {word : String} :
    (Axis.ofWord? word).isSome = true ↔ word = "material" ∨ word = "work" := by
  unfold Axis.ofWord?
  split
  · simp
  · simp
  · next noMaterial noWork => exact iff_of_false (by simp) (by simpa using ⟨noMaterial, noWork⟩)

theorem readTarget_ends (initial : Option Axis) (raw : Json) :
    Ends (fun _ => IsTarget raw) (fun _ => ¬ IsTarget raw)
      (Distribution.readTarget initial raw) := by
  cases hset : raw.isSet with
  | false =>
    simp only [Distribution.readTarget, hset]
    exact .inl hset
  | true =>
    simp only [Distribution.readTarget, hset, if_true, IsTarget, Bool.true_eq_false, false_or]
    cases raw with
    | string word =>
      have hword := @Axis.isSome_ofWord?_iff word
      simp only [Json.string.injEq, ← hword]
      cases Axis.ofWord? word with
      | some axis => exact rfl
      | none => exact Bool.false_ne_true
    | _ => exact fun h => by simp at h

theorem readCategory_ends (members : List (String × Json)) (c : Category) :
    Ends (fun _ => IsTarget (Json.member members c.baseKey) ∧
        IsTarget (Json.member members c.markupKey))
      (fun _ => ¬ (IsTarget (Json.member members c.baseKey) ∧
        IsTarget (Json.member members c.markupKey)))
      (Distribution.readCategory members c) := by
  unfold Distribution.readCategory
  refine Ends.bind ((readTarget_ends _ _).mono (fun _ => id) fun _ hbase h => hbase h.1)
    fun _ hbase => ?_
  refine Ends.bind ((readTarget_ends _ _).mono (fun _ => id) fun _ hmarkup h => hmarkup h.2)
    fun _ hmarkup => ?_
  exact ⟨hbase, hmarkup⟩

theorem Category.mem_all (c : Category) : c ∈ Category.all := by
  cases c <;> decide

theorem ofMembers_ends (members : List (String × Json)) :
    Ends (fun _ => AreTargets members) (fun _ => ¬ AreTargets members)
      (Distribution.ofMembers members) := by
  unfold Distribution.ofMembers
  refine Ends.bind ((mapM_ends (readCategory_ends members) Category.all).mono
    (fun _ => id) fun _ h hall => h fun c _ => hall c) fun _ h => ?_
  exact fun c => h c c.mem_all

end Pricing

namespace Store

open Markup Pricing

/-! ## Tenders without a tactic -/

/-- Why a tender has no tactic: it is missing, names none, or names one that is missing. -/
inductive Unpriced {α : Type} (t : Tables α) (id : String) : TenderError → Prop
  | tenderMissing (missing : t.tender? id = none) : Unpriced t id (.tenderMissing id)
  | noTactic {tender : TenderRow} (found : t.tender? id = some tender)
      (unnamed : tender.tactic = none ∨ tender.tactic = some "") : Unpriced t id (.noTactic id)
  | tacticMissing {tender : TenderRow} {tactic : String} (found : t.tender? id = some tender)
      (named : tender.tactic = some tactic) (notEmpty : tactic ≠ "")
      (missing : t.tactic? tactic = none) : Unpriced t id (.tacticMissing tactic)

theorem findTactic_eq_error_iff {α : Type} {t : Tables α} {id : String} {e : TenderError} :
    findTactic t id = .error e ↔ Unpriced t id e := by
  constructor
  · intro h
    unfold findTactic at h
    split at h
    · next missing =>
      cases h
      exact .tenderMissing missing
    · next tender found =>
      cases hnamed : tender.tactic with
      | none =>
        rw [hnamed] at h
        cases h
        exact .noTactic found (.inl hnamed)
      | some tactic =>
        simp only [hnamed, Option.getD_some] at h
        by_cases hempty : tactic = ""
        · rw [if_pos hempty] at h
          cases h
          exact .noTactic found (.inr (hempty ▸ hnamed))
        · rw [if_neg hempty] at h
          split at h
          · next missing =>
            cases h
            exact .tacticMissing found hnamed hempty missing
          · cases h
  · intro h
    cases h with
    | tenderMissing missing => simp only [findTactic, missing]
    | noTactic found unnamed =>
      have hempty : ∀ tender : TenderRow, tender.tactic = none ∨ tender.tactic = some "" →
          tender.tactic.getD "" = "" := by
        intro tender h
        rcases h with h | h <;> rw [h] <;> rfl
      simp only [findTactic, found, hempty _ unnamed, if_true]
    | tacticMissing found named notEmpty missing =>
      simp only [findTactic, found, named, Option.getD_some, if_neg notEmpty, missing]

/-! ## Contexts -/

namespace TenderError

/-- A tender, or its tactic, is not there. -/
inductive NotFound : TenderError → Prop
  | tenderMissing (id : String) : NotFound (.tenderMissing id)
  | noTactic (id : String) : NotFound (.noTactic id)
  | tacticMissing (id : String) : NotFound (.tacticMissing id)

/-- A stored value could not be read, and no sequence is blamed. -/
inductive Untold : TenderError → Prop
  | tactic {e : LoadError} (noBlame : ¬ e.IsConfig) : Untold (.tactic e)
  | distribution (fault : TargetFault) : Untold (.distribution fault)

end TenderError

theorem Unpriced.notFound {α : Type} {t : Tables α} {id : String} {e : TenderError}
    (h : Unpriced t id e) : e.NotFound := by
  cases h with
  | tenderMissing => exact .tenderMissing id
  | noTactic => exact .noTactic id
  | tacticMissing => exact .tacticMissing _

/-- A tender at which loading breaks off: at its tactic, or at its settings where the tactic is in
order. -/
inductive ContextBreaks (t : Tables Float) (id : String) : Prop
  | tactic {row : TacticRow} (found : findTactic t id = .ok row)
      (breaks : TacticBreaks row.sequences row.baseCosts)
  | settings {row : TacticRow} {settings : DistributionRow} (found : findTactic t id = .ok row)
      (sequences : AreSequences row.sequences) (baseCosts : AreEntries row.baseCosts)
      (stored : t.distributionOf? id = some settings) (noTargets : ¬ AreTargets settings.targets)

/-- All that a context is loaded from can be read. -/
def ContextInOrder (t : Tables Float) (id : String) : Prop :=
  ∃ row, findTactic t id = .ok row ∧ AreSequences row.sequences ∧ AreEntries row.baseCosts ∧
    ∀ settings, t.distributionOf? id = some settings → AreTargets settings.targets

section Context

variable {t : Tables Float} {id : String} {withItems : Bool}

theorem loadPercentages_of_findTactic {row : TacticRow} (found : findTactic t id = .ok row) :
    ∃ percentages, (loadPercentages t id).result = .ok percentages := by
  unfold loadPercentages
  cases htender : t.tender? id with
  | none =>
    rw [findTactic_eq_error_iff.mpr (.tenderMissing htender)] at found
    cases found
  | some tender => cases t.percentagesOf id <;> exact ⟨_, rfl⟩

theorem loadDistribution_ends (t : Tables Float) (id : String) :
    Ends (fun _ => ∀ settings, t.distributionOf? id = some settings → AreTargets settings.targets)
      (fun e => (∃ fault, e = .distribution fault) ∧
        ∃ settings, t.distributionOf? id = some settings ∧ ¬ AreTargets settings.targets)
      (loadDistribution t id).result := by
  unfold loadDistribution
  cases hstored : t.distributionOf? id with
  | none => exact fun settings h => nomatch h
  | some settings =>
    have hends := ofMembers_ends settings.targets
    rw [Logged.result_lift]
    refine Ends.map ?_
    cases hread : Distribution.ofMembers settings.targets with
    | ok found =>
      rw [hread] at hends
      exact fun other hother => Option.some.inj hother ▸ hends
    | error fault =>
      rw [hread] at hends
      exact ⟨⟨fault, rfl⟩, settings, rfl, hends⟩

theorem loadContext_error {withItems' : Bool} {e : TenderError}
    (h : (loadContext t id withItems).result = .error e) :
    (loadContext t id withItems').result = .error e := by
  rw [loadContext_result] at h ⊢
  simp only [bind_eq_error_iff, pure, Except.pure, reduceCtorEq, and_false, exists_false,
    or_false] at h ⊢
  exact h

/-- Loading the context of a tender gives a context, or tells that the tender or its tactic is not
there, or blames a sequence, or breaks off. -/
theorem loadContext_ends (t : Tables Float) (id : String) (withItems : Bool) :
    Ends (fun ctx => ctx.tender = id)
      (fun e => Unpriced t id e ∨
        (∃ row fault, findTactic t id = .ok row ∧ e = .tactic (.config fault) ∧
          BlamesMember row.sequences fault) ∨
        (e.Untold ∧ ContextBreaks t id))
      (loadContext t id withItems).result := by
  have hfound : Ends (fun row => findTactic t id = .ok row)
      (fun e => findTactic t id = .error e) (findTactic t id) := by
    cases findTactic t id <;> exact rfl
  rw [loadContext_result]
  refine Ends.bind (hfound.mono (fun _ h => h) fun e he => .inl (findTactic_eq_error_iff.mp he))
    fun row found => ?_
  obtain ⟨percentages, hpercentages⟩ := loadPercentages_of_findTactic found
  cases htactic : (Tactic.ofRaw row.sequences (row.name.getD "") row.baseCosts :
      Except LoadError (Tactic Float)) with
  | error e =>
    have hends := (tacticOfRaw_ends row.sequences (row.name.getD "") row.baseCosts).error htactic
    refine .inr ?_
    rcases hends with ⟨fault, hfault, hblamed⟩ | ⟨hconfig, hbreaks⟩
    · exact .inl ⟨row, fault, found, congrArg TenderError.tactic hfault, hblamed⟩
    · exact .inr ⟨.tactic hconfig, .tactic found hbreaks⟩
  | ok tactic =>
    obtain ⟨hsequences, hcosts⟩ :=
      (tacticOfRaw_ends row.sequences (row.name.getD "") row.baseCosts).ok htactic
    rw [hpercentages]
    show Ends _ _ ((loadDistribution t id).result >>= _)
    refine Ends.bind ((loadDistribution_ends t id).mono (fun _ _ => trivial) ?_) fun _ _ => rfl
    intro e h
    obtain ⟨⟨fault, rfl⟩, settings, stored, noTargets⟩ := h
    exact .inr (.inr ⟨.distribution fault, .settings found hsequences hcosts stored noTargets⟩)

theorem exists_loadContext_iff :
    (∃ ctx, (loadContext t id withItems).result = .ok ctx) ↔ ContextInOrder t id := by
  have hends := loadDistribution_ends t id
  constructor
  · intro h
    obtain ⟨ctx, hloaded⟩ := h
    obtain ⟨row, tactic, -, distribution, found, htactic, -, hdistribution, -⟩ :=
      loadContext_eq_ok_iff.mp hloaded
    obtain ⟨sequences, baseCosts⟩ := exists_tacticOfRaw_iff.mp ⟨tactic, htactic⟩
    exact ⟨row, found, sequences, baseCosts, hends.ok hdistribution⟩
  · intro h
    obtain ⟨row, found, sequences, baseCosts, targets⟩ := h
    obtain ⟨tactic, htactic⟩ := exists_tacticOfRaw_iff.mpr ⟨sequences, baseCosts⟩
    obtain ⟨percentages, hpercentages⟩ := loadPercentages_of_findTactic found
    cases hdistribution : (loadDistribution t id).result with
    | ok distribution =>
      exact ⟨_, loadContext_eq_ok_iff.mpr ⟨row, tactic, percentages, distribution, found, htactic,
        hpercentages, hdistribution, rfl⟩⟩
    | error e =>
      obtain ⟨-, settings, stored, noTargets⟩ := hends.error hdistribution
      exact absurd (targets settings stored) noTargets

theorem unpriced_iff {e : TenderError} :
    Unpriced t id e ↔ (loadContext t id withItems).result = .error e ∧ e.NotFound := by
  constructor
  · intro h
    refine ⟨?_, h.notFound⟩
    rw [loadContext_result, findTactic_eq_error_iff.mpr h]
    rfl
  · intro h
    obtain ⟨herror, notFound⟩ := h
    rcases (loadContext_ends t id withItems).error herror with
      hunpriced | ⟨_, _, -, rfl, -⟩ | ⟨untold, -⟩
    · exact hunpriced
    · cases notFound
    · cases untold <;> cases notFound

theorem contextBreaks_iff :
    ContextBreaks t id ↔ ∃ e, (loadContext t id withItems).result = .error e ∧ e.Untold := by
  constructor
  · intro h
    cases h with
    | @tactic row found breaks =>
      obtain ⟨e, herror, noBlame⟩ := (tacticBreaks_iff (row.name.getD "")).mp breaks
      refine ⟨.tactic e, ?_, .tactic noBlame⟩
      rw [loadContext_result, found, ok_bind, herror]
      rfl
    | @settings row settings found sequences baseCosts stored noTargets =>
      obtain ⟨percentages, hpercentages⟩ := loadPercentages_of_findTactic found
      obtain ⟨tactic, htactic⟩ := exists_tacticOfRaw_iff.mpr ⟨sequences, baseCosts⟩
      have hends := loadDistribution_ends t id
      cases hdistribution : (loadDistribution t id).result with
      | ok distribution => exact absurd (hends.ok hdistribution settings stored) noTargets
      | error e =>
        obtain ⟨⟨fault, rfl⟩, -⟩ := hends.error hdistribution
        refine ⟨.distribution fault, ?_, .distribution fault⟩
        rw [loadContext_result, found, ok_bind, htactic, hpercentages, hdistribution]
        rfl
  · intro h
    obtain ⟨e, herror, untold⟩ := h
    rcases (loadContext_ends t id withItems).error herror with
      hunpriced | ⟨_, fault, -, rfl, -⟩ | ⟨-, hbreaks⟩
    · have notFound := hunpriced.notFound
      cases untold <;> cases notFound
    · cases untold with
      | tactic noBlame => exact absurd ⟨fault, rfl⟩ noBlame
    · exact hbreaks

end Context

end Store
end TenderPricing
