import TenderPricing.Pricing.Consistency
import TenderPricing.Proofs.Keyed
import TenderPricing.Proofs.Markup.Homogeneity
import TenderPricing.Proofs.Number.Cents
/-!
Where a coefficient and its sequence disagree.

The check prices a tender by a table of coefficients.  That table holds the coefficient of each type
with a sequence and nothing else, so the items that the check lists can be told one by one, without
the table.  A sequence that scales with its base agrees with its coefficient at every positive
amount, which leaves the other sequences as the only ones that items are listed for.
-/
namespace TenderPricing

/-- An object names each of its keys once. -/
def Json.DistinctKeys : Json → Prop
  | .object members => (members.map (·.1)).Nodup
  | _ => True

namespace Pricing

open Markup

/-! ## Tactics as they are loaded -/

/-- Each item type has one sequence, and it is valid. -/
structure Tactic.WellFormed {α : Type} (tactic : Tactic α) : Prop where
  distinct : (tactic.sequences.map (·.1)).Nodup
  valid : ∀ entry ∈ tactic.sequences, Valid entry.2

theorem Tactic.wellFormed_ofRaw {α : Type} [Arithmetic α] {raw baseCosts : Json} {name : String}
    {tactic : Tactic α} (distinct : raw.DistinctKeys)
    (h : Tactic.ofRaw raw name baseCosts = .ok tactic) : tactic.WellFormed := by
  rw [Tactic.ofRaw, bind_eq_ok_iff] at h
  obtain ⟨sequences, hsequences, h⟩ := h
  rw [bind_eq_ok_iff] at h
  obtain ⟨costs, -, h⟩ := h
  rw [pure_eq_ok_iff] at h
  subst h
  refine ⟨?_, forall_mem_sequencesOfRaw (fun _ _ _ => valid_of_sequenceOfRaw) hsequences⟩
  unfold sequencesOfRaw at hsequences
  split at hsequences
  · cases raw with
    | object members =>
      rw [keys_sequencesOfMembers hsequences]
      exact distinct
    | _ => simp at hsequences
  · rw [Except.ok.injEq] at hsequences
    subst hsequences
    exact List.nodup_nil

theorem Tactic.WellFormed.valid_sequenceFor {α : Type} {tactic : Tactic α}
    (h : tactic.WellFormed) (itemType : String) : Valid (tactic.sequenceFor itemType) :=
  Keyed.lookup_getD_of_forall (P := Valid) h.valid rfl

/-! ## The table of coefficients -/

/-- What the table of coefficients may hold for an item type with the given sequence. -/
inductive Tabulated (rates : Rates Rat) (itemType : String) (steps : List (Step Rat)) :
    Option Rat → Prop
  | absent (empty : steps = []) : Tabulated rates itemType steps none
  | present (c : Rat) (nonempty : steps ≠ [])
    (probed : (coefficient steps rates itemType).result = .ok c) :
    Tabulated rates itemType steps (some c)

theorem coefficients_lookup {rates : Rates Rat} {sequences : Sequences Rat} :
    ∀ {known : Keyed String Rat}, (sequences.map (·.1)).Nodup →
      (coefficients rates sequences).result = .ok known → ∀ itemType,
        Tabulated rates itemType ((sequences.lookup itemType).getD []) (known.lookup itemType) := by
  induction sequences with
  | nil =>
    intro known _ h itemType
    rw [coefficients, Logged.result_pure, Except.ok.injEq] at h
    subst h
    exact .absent rfl
  | cons entry rest ih =>
    intro known distinct h itemType
    obtain ⟨name, steps⟩ := entry
    rw [List.map_cons, List.nodup_cons] at distinct
    -- a second sequence of the type would have its coefficient found in place of the first
    have hrest : itemType = name → (rest.lookup itemType).getD [] = [] := by
      rintro rfl
      have hnone : rest.lookup itemType = none := by
        rw [List.lookup_eq_none_iff]
        intro later hlater
        rw [bne_iff_ne]
        rintro rfl
        exact distinct.1 (List.mem_map.mpr ⟨later, hlater, rfl⟩)
      rw [hnone]
      rfl
    rw [coefficients] at h
    by_cases hempty : steps.isEmpty = true
    · rw [if_pos hempty] at h
      have hlater := ih distinct.2 h itemType
      by_cases hname : itemType = name
      · rw [hrest hname] at hlater
        subst hname
        rw [List.lookup_cons_self, Option.getD_some, List.isEmpty_iff.mp hempty]
        exact hlater
      · rw [List.lookup_cons, beq_false_of_ne hname]
        exact hlater
    · rw [if_neg hempty, Logged.result_bind, bind_eq_ok_iff] at h
      obtain ⟨c, hc, h⟩ := h
      rw [Logged.result_bind, bind_eq_ok_iff] at h
      obtain ⟨others, hothers, h⟩ := h
      rw [Logged.result_pure, Except.ok.injEq] at h
      subst h
      by_cases hname : itemType = name
      · subst hname
        rw [List.lookup_cons_self, List.lookup_cons_self, Option.getD_some]
        exact .present c (by simpa using hempty) hc
      · rw [List.lookup_cons, List.lookup_cons, beq_false_of_ne hname]
        exact ih distinct.2 hothers itemType

/-! ## One item -/

section Items

variable (tactic : Tactic Rat) (rates : Rates Rat)

/-- The price of an item by the coefficient of its type and its price by its sequence. -/
def bothPrices? (item : Item Rat) : Option (Rat × Rat) := do
  let steps := tactic.sequenceFor item.itemType
  let c ← (coefficient steps rates item.itemType).result.toOption
  let e ← (evaluate steps item.baseAmount rates item.itemType).toOption
  return (c * item.baseAmount, e.finalValue)

/-- Items with a positive amount and a sequence are compared. -/
def Compared (item : Item Rat) : Prop :=
  0 < item.baseAmount ∧ tactic.sequenceFor item.itemType ≠ []

instance (item : Item Rat) : Decidable (Compared tactic item) :=
  inferInstanceAs (Decidable (_ ∧ _))

/-- The disagreement of an item: its two prices, if it is compared and they lie more than a cent
apart. -/
def disagreement? (item : Item Rat) : Option (Mismatch Rat) :=
  if Compared tactic item then
    (bothPrices? tactic rates item).bind fun (viaCoefficient, viaSequence) =>
      if 1 / 100 < |viaCoefficient - viaSequence| then
        some ⟨item.id, item.itemType, item.baseAmount, viaCoefficient, viaSequence⟩
      else none
  else none

end Items

section Check

variable {tactic : Tactic Rat} {rates : Rates Rat} {known : Keyed String Rat}

theorem tolerance_eq : (tolerance : Rat) = 1 / 100 := by decide +kernel

theorem Tabulated.coefficient_ok {itemType : String} {held : Option Rat}
    (table : Tabulated rates itemType (tactic.sequenceFor itemType) held)
    (nonempty : tactic.sequenceFor itemType ≠ []) :
    ∃ c, (coefficient (tactic.sequenceFor itemType) rates itemType).result = .ok c := by
  cases table with
  | absent empty => exact absurd empty nonempty
  | present c _ probed => exact ⟨c, probed⟩

/-- The check of a compared item fails where its sequence does, and else finds its disagreement;
the table is only there to spare it the coefficient. -/
theorem mismatch?_eq {item : Item Rat}
    (table : Tabulated rates item.itemType (tactic.sequenceFor item.itemType)
      (known.lookup item.itemType)) :
    mismatch? tactic rates known item =
      if Compared tactic item then do
        let _ ← evaluate (tactic.sequenceFor item.itemType) item.baseAmount rates item.itemType
        return disagreement? tactic rates item
      else .ok none := by
  simp only [mismatch?, Arithmetic.exact_zero]
  generalize known.lookup item.itemType = held at table
  cases table with
  | absent empty => rw [if_neg fun compared : Compared tactic item => compared.2 empty]
  | present c nonempty probed =>
    by_cases positive : 0 < item.baseAmount
    · have compared : Compared tactic item := ⟨positive, nonempty⟩
      simp only [if_neg (not_le.mpr positive), if_pos compared]
      cases heval : evaluate (tactic.sequenceFor item.itemType) item.baseAmount rates
          item.itemType with
      | error failure => rfl
      | ok e =>
        have hprices : bothPrices? tactic rates item =
            some (c * item.baseAmount, e.finalValue) := by
          rw [bothPrices?, probed, heval]
          rfl
        rw [ok_bind, ok_bind, disagreement?, if_pos compared, hprices, tolerance_eq,
          Mismatch.difference, Arithmetic.abs_eq, mul_comm item.baseAmount c]
        rfl
    · simp only [if_pos (not_lt.mp positive)]
      rw [if_neg fun compared : Compared tactic item => positive compared.1]

theorem mismatch?_ok {item : Item Rat} {found : Option (Mismatch Rat)}
    (table : Tabulated rates item.itemType (tactic.sequenceFor item.itemType)
      (known.lookup item.itemType))
    (h : mismatch? tactic rates known item = .ok found) :
    found = disagreement? tactic rates item ∧
      (Compared tactic item → (bothPrices? tactic rates item).isSome = true) := by
  rw [mismatch?_eq table] at h
  by_cases compared : Compared tactic item
  · rw [if_pos compared, bind_eq_ok_iff] at h
    obtain ⟨e, he, h⟩ := h
    obtain ⟨c, hc⟩ := table.coefficient_ok compared.2
    refine ⟨(pure_eq_ok_iff.mp h).symm, fun _ => ?_⟩
    rw [bothPrices?, hc, he]
    rfl
  · rw [if_neg compared, Except.ok.injEq] at h
    rw [disagreement?, if_neg compared]
    exact ⟨h.symm, fun h => absurd h compared⟩

/-- The prices of an item agree where its sequence scales with its base. -/
theorem bothPrices?_of_scaleInvariant (wellFormed : tactic.WellFormed) {item : Item Rat}
    (invariant : isScaleInvariant (tactic.sequenceFor item.itemType) = .ok true)
    (positive : 0 < item.baseAmount) {prices : Rat × Rat}
    (h : bothPrices? tactic rates item = some prices) : prices.1 = prices.2 := by
  have htogether := coefficient_together (wellFormed.valid_sequenceFor item.itemType)
    (degree_of_isScaleInvariant invariant) rates item.itemType positive.ne'
  simp only [bothPrices?, Option.bind_eq_bind, Option.bind_eq_some_iff] at h
  obtain ⟨c, hc, e, he, h⟩ := h
  obtain ⟨e', he', hfinal⟩ := htogether.ok (eq_ok_of_toOption hc)
  rw [eq_ok_of_toOption he, Except.ok.injEq] at he'
  subst he'
  rw [← Option.some.inj h]
  exact hfinal.symm

theorem disagreement?_of_scaleInvariant (wellFormed : tactic.WellFormed) {item : Item Rat}
    (invariant : isScaleInvariant (tactic.sequenceFor item.itemType) = .ok true) :
    disagreement? tactic rates item = none := by
  rw [disagreement?]
  by_cases compared : Compared tactic item
  · rw [if_pos compared]
    cases hprices : bothPrices? tactic rates item with
    | none => rfl
    | some prices =>
      have hsame := bothPrices?_of_scaleInvariant wellFormed invariant compared.1 hprices
      rw [Option.bind_some]
      show (if 1 / 100 < |prices.1 - prices.2| then _ else none) = none
      rw [hsame, sub_self, abs_zero, if_neg (by norm_num)]
  · rw [if_neg compared]

theorem disagreement?_itemType {item : Item Rat} {m : Mismatch Rat}
    (h : disagreement? tactic rates item = some m) : m.itemType = item.itemType := by
  rw [disagreement?] at h
  split at h
  · simp only [Option.bind_eq_some_iff] at h
    obtain ⟨prices, -, h⟩ := h
    split at h
    · rw [← Option.some.inj h]
    · cases h
  · cases h

/-- A coefficient that was found at the probe rules out a failure at every other amount. -/
theorem mismatch?_of_scaleInvariant (wellFormed : tactic.WellFormed) {item : Item Rat}
    (table : Tabulated rates item.itemType (tactic.sequenceFor item.itemType)
      (known.lookup item.itemType))
    (invariant : isScaleInvariant (tactic.sequenceFor item.itemType) = .ok true) :
    mismatch? tactic rates known item = .ok none := by
  rw [mismatch?_eq table]
  by_cases compared : Compared tactic item
  · obtain ⟨c, hc⟩ := table.coefficient_ok compared.2
    obtain ⟨e, he, -⟩ := (coefficient_together (wellFormed.valid_sequenceFor item.itemType)
      (degree_of_isScaleInvariant invariant) rates item.itemType compared.1.ne').ok hc
    rw [if_pos compared, he, disagreement?_of_scaleInvariant wellFormed invariant]
    rfl
  · rw [if_neg compared]

/-! ## A tender -/

theorem mismatches_ok (table : ∀ itemType, Tabulated rates itemType
      (tactic.sequenceFor itemType) (known.lookup itemType)) {items : List (Item Rat)} :
    ∀ {found : List (Mismatch Rat)}, mismatches tactic rates known items = .ok found →
      found = items.filterMap (disagreement? tactic rates) ∧
        ∀ item ∈ items, Compared tactic item → (bothPrices? tactic rates item).isSome = true := by
  induction items with
  | nil =>
    intro found h
    rw [mismatches, Except.ok.injEq] at h
    exact ⟨h.symm, by simp⟩
  | cons item rest ih =>
    intro found h
    rw [mismatches, bind_eq_ok_iff] at h
    obtain ⟨first, hfirst, h⟩ := h
    rw [bind_eq_ok_iff] at h
    obtain ⟨others, hothers, h⟩ := h
    rw [pure_eq_ok_iff] at h
    obtain ⟨hitem, hpriced⟩ := mismatch?_ok (table item.itemType) hfirst
    obtain ⟨hlater, hrest⟩ := ih hothers
    refine ⟨?_, List.forall_mem_cons.mpr ⟨hpriced, hrest⟩⟩
    rw [← h, hitem, hlater, List.filterMap_cons]
    cases disagreement? tactic rates item <;> rfl

theorem mismatches_of_scaleInvariant (wellFormed : tactic.WellFormed)
    (table : ∀ itemType, Tabulated rates itemType (tactic.sequenceFor itemType)
      (known.lookup itemType))
    (invariant : ∀ itemType, isScaleInvariant (tactic.sequenceFor itemType) = .ok true)
    (items : List (Item Rat)) : mismatches tactic rates known items = .ok [] := by
  induction items with
  | nil => rfl
  | cons item rest ih =>
    rw [mismatches, ih, mismatch?_of_scaleInvariant wellFormed (table item.itemType)
      (invariant item.itemType)]
    rfl

theorem checkConsistency_result (items : List (Item Rat)) :
    (checkConsistency items tactic rates).result =
      (coefficients rates tactic.sequences).result >>= fun known =>
        mismatches tactic rates known items := by
  simp only [checkConsistency, Logged.result_bind, Logged.result_lift, Logged.result_tellIf,
    Logged.result_pure, ok_bind]
  exact congrArg _ (funext fun known => bind_pure _)

theorem isScaleInvariant_sequenceFor
    (invariant : ∀ entry ∈ tactic.sequences, isScaleInvariant entry.2 = .ok true)
    (itemType : String) : isScaleInvariant (tactic.sequenceFor itemType) = .ok true :=
  Keyed.lookup_getD_of_forall (P := fun steps => isScaleInvariant steps = .ok true) invariant rfl

/-- The check lists exactly the disagreements, in the order of the items, and all of them are of
types whose sequence does not scale with its base.  Where every sequence does and the coefficients
exist, the check succeeds for every tender and lists nothing. -/
theorem checkConsistency_lists_disagreements {raw baseCosts : Json} {name : String}
    (distinct : raw.DistinctKeys) (loaded : Tactic.ofRaw raw name baseCosts = .ok tactic)
    (rates : Rates Rat) :
    (∀ items found, (checkConsistency items tactic rates).result = .ok found →
      (∀ item ∈ items, Compared tactic item → (bothPrices? tactic rates item).isSome = true) ∧
        found = items.filterMap (disagreement? tactic rates) ∧
        ∀ m ∈ found, isScaleInvariant (tactic.sequenceFor m.itemType) = .ok false) ∧
    ((∀ entry ∈ tactic.sequences, isScaleInvariant entry.2 = .ok true) →
      ∀ known, (coefficients rates tactic.sequences).result = .ok known →
        ∀ items, (checkConsistency items tactic rates).result = .ok []) := by
  have wellFormed := Tactic.wellFormed_ofRaw distinct loaded
  have table : ∀ known, (coefficients rates tactic.sequences).result = .ok known →
      ∀ itemType, Tabulated rates itemType (tactic.sequenceFor itemType) (known.lookup itemType) :=
    fun known h => coefficients_lookup wellFormed.distinct h
  refine ⟨fun items found h => ?_, fun invariant known hknown items => ?_⟩
  · rw [checkConsistency_result, bind_eq_ok_iff] at h
    obtain ⟨known, hknown, h⟩ := h
    obtain ⟨hfound, hpriced⟩ := mismatches_ok (table known hknown) h
    refine ⟨hpriced, hfound, fun m hm => ?_⟩
    rw [hfound, List.mem_filterMap] at hm
    obtain ⟨item, -, hitem⟩ := hm
    rw [disagreement?_itemType hitem]
    obtain ⟨invariant, hinvariant⟩ :=
      isScaleInvariant_ok (wellFormed.valid_sequenceFor item.itemType)
    cases invariant with
    | false => exact hinvariant
    | true =>
      rw [disagreement?_of_scaleInvariant wellFormed hinvariant] at hitem
      cases hitem
  · rw [checkConsistency_result, hknown, ok_bind]
    exact mismatches_of_scaleInvariant wellFormed (table known hknown)
      (isScaleInvariant_sequenceFor invariant) items

end Check

/-- Work with a fee of one hundred, as it is persisted. -/
def feeOnWork : String × Json :=
  ("раб", .array [.object [("baseIndex", .int (-1)), ("action1", .string "add"),
    ("operand1Type", .string "number"), ("operand1Key", .int 100)]])

def profitOnMaterial : String × Json :=
  ("мат", .array [.object [("baseIndex", .int (-1)), ("action1", .string "multiply"),
    ("operand1Type", .string "markup"), ("operand1Key", .string "profit"),
    ("operand1MultiplyFormat", .string "addOne")]])

def profitTactic : Tactic Rat where
  sequences := [("мат", [⟨-1, [⟨.multiply, .rate "profit" .addOne⟩], .null⟩])]

def feeTactic : Tactic Rat where
  sequences := ("раб", [⟨-1, [⟨.add, .number 100⟩], .null⟩]) :: profitTactic.sequences

/-- The fee agrees with its coefficient at the probe only. -/
def feeItems : List (Item Rat) :=
  [{ id := "1", itemType := "раб", totalAmount := some 1000 },
    { id := "2", itemType := "раб", totalAmount := some 100 },
    { id := "3", itemType := "мат", totalAmount := some 1000 },
    { id := "4", itemType := "раб" },
    { id := "5", itemType := "раб", totalAmount := some 50 }]

theorem checkConsistency_lists_disagreements_fee :
    (Json.object [feeOnWork, profitOnMaterial]).DistinctKeys ∧
      Tactic.ofRaw (.object [feeOnWork, profitOnMaterial]) "" .null = .ok feeTactic ∧
      (∃ found, (checkConsistency feeItems feeTactic (.ofList [("profit", some 10)])).result =
          .ok found ∧
        found.map (·.itemId) = ["1", "5"] ∧
        found = feeItems.filterMap (disagreement? feeTactic (.ofList [("profit", some 10)])) ∧
        ∀ m ∈ found, isScaleInvariant (feeTactic.sequenceFor m.itemType) = .ok false) ∧
      Tactic.ofRaw (.object [profitOnMaterial]) "" .null = .ok profitTactic ∧
      ∀ items, (checkConsistency items profitTactic (.ofList [("profit", some 10)])).result =
        .ok [] := by
  have distinct : (Json.object [feeOnWork, profitOnMaterial]).DistinctKeys := by
    simp [Json.DistinctKeys, feeOnWork, profitOnMaterial]
  have loaded : Tactic.ofRaw (.object [feeOnWork, profitOnMaterial]) "" .null = .ok feeTactic :=
    rfl
  have loadedProfit : Tactic.ofRaw (.object [profitOnMaterial]) "" .null = .ok profitTactic := rfl
  have hids : (checkConsistency feeItems feeTactic
      (.ofList [("profit", some 10)])).result.toOption.map (·.map (·.itemId)) =
        some ["1", "5"] := by decide +kernel
  obtain ⟨found, hfound, hids⟩ := Option.map_eq_some_iff.mp hids
  replace hfound := eq_ok_of_toOption hfound
  have fee := checkConsistency_lists_disagreements distinct loaded (.ofList [("profit", some 10)])
  obtain ⟨-, hlisted, hnot⟩ := fee.1 feeItems found hfound
  have profit := checkConsistency_lists_disagreements (by simp [Json.DistinctKeys]) loadedProfit
    (.ofList [("profit", some 10)])
  have hprofit : (coefficients (.ofList [("profit", some (10 : Rat))])
      profitTactic.sequences).result = .ok [("мат", 11 / 10)] :=
    eq_ok_of_toOption (by decide +kernel)
  refine ⟨distinct, loaded, ⟨found, hfound, hids, hlisted, hnot⟩, loadedProfit, ?_⟩
  refine profit.2 ?_ _ hprofit
  intro entry hentry
  rw [List.mem_singleton.mp hentry]
  rfl

end Pricing
end TenderPricing
