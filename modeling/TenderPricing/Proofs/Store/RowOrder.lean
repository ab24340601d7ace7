import Mathlib.Data.List.Nodup
import TenderPricing.Proofs.Keyed
import TenderPricing.Proofs.Store.ItemRun
/-!
The order of rows.

A query may return rows in any order.  Where the tables hold no two rows of one key, as their
constraints demand, a row is found by its key in every order, and what a tender's prices are
computed from is the same in every order.
-/
namespace TenderPricing
namespace Store

open Markup Pricing

/-! ## Rows with keys -/

section Keys

variable {β κ : Type} {key : β → Option κ} {rows rows' : List β}

/-- No two rows have the same key.  Rows without a key are not told apart. -/
def Distinct (key : β → Option κ) (rows : List β) : Prop := (rows.filterMap key).Nodup

theorem Distinct.eq (distinct : Distinct key rows) {x y : β} {k : κ} (hx : x ∈ rows)
    (hy : y ∈ rows) (hxk : key x = some k) (hyk : key y = some k) : x = y := by
  have hpairs := List.pairwise_filterMap.mp distinct
  induction hpairs with
  | nil => cases hx
  | cons hfirst hrest ih =>
    rename_i first rest
    have hdistinct : Distinct key rest := List.pairwise_filterMap.mpr hrest
    rcases List.mem_cons.mp hx with hx | hx
    · rcases List.mem_cons.mp hy with hy | hy
      · rw [hx, hy]
      · rw [hx] at hxk
        exact absurd rfl (hfirst y hy k hxk k hyk)
    · rcases List.mem_cons.mp hy with hy | hy
      · rw [hy] at hyk
        exact absurd rfl (hfirst x hx k hyk k hxk)
      · exact ih hdistinct hx hy

/-- A row is found by its key exactly if it is there. -/
theorem Distinct.find?_eq_some_iff [DecidableEq κ] {name : β → κ}
    (distinct : Distinct (fun row => some (name row)) rows) {row : β} {k : κ} :
    rows.find? (fun row => name row = k) = some row ↔ row ∈ rows ∧ name row = k := by
  constructor
  · intro h
    exact ⟨List.mem_of_find?_eq_some h, by simpa using List.find?_some h⟩
  · rintro ⟨hrow, hname⟩
    cases hfind : rows.find? (fun row => name row = k) with
    | none =>
      have hnot := List.find?_eq_none.mp hfind row hrow
      exact absurd (decide_eq_true hname) hnot
    | some found =>
      have hfound : name found = k := by simpa using List.find?_some hfind
      rw [distinct.eq (List.mem_of_find?_eq_some hfind) hrow (congrArg some hfound)
        (congrArg some hname)]

/-- A row that is alone with what is looked for is found in every order. -/
theorem find?_perm {p : β → Bool} (alone : ∀ x ∈ rows, ∀ y ∈ rows, p x → p y → x = y)
    (same : rows.Perm rows') : rows'.find? p = rows.find? p := by
  cases hfound : rows.find? p with
  | none =>
    rw [List.find?_eq_none] at hfound ⊢
    exact fun x hx => hfound x (same.mem_iff.mpr hx)
  | some x =>
    have hx : x ∈ rows := List.mem_of_find?_eq_some hfound
    have hpx : p x := List.find?_some hfound
    cases hfound' : rows'.find? p with
    | none =>
      rw [List.find?_eq_none] at hfound'
      exact absurd hpx (hfound' x (same.mem_iff.mp hx))
    | some y =>
      have hy : y ∈ rows := same.mem_iff.mpr (List.mem_of_find?_eq_some hfound')
      rw [alone y hy x hx (List.find?_some hfound') hpx]

end Keys

/-! ## Tables in another order -/

section Tables

variable {α : Type}

/-- The tables hold the same rows, each in some order. -/
structure SameRows (t t' : Tables α) : Prop where
  roles : t.roles.Perm t'.roles
  users : t.users.Perm t'.users
  tenders : t.tenders.Perm t'.tenders
  tactics : t.tactics.Perm t'.tactics
  parameters : t.parameters.Perm t'.parameters
  percentages : t.percentages.Perm t'.percentages
  distributions : t.distributions.Perm t'.distributions
  exclusions : t.exclusions.Perm t'.exclusions
  items : t.items.Perm t'.items
  positions : t.positions.Perm t'.positions

/-- The tender and the parameter that a percentage is stored for. -/
def PercentageRow.key (row : PercentageRow α) : Option (String × String) :=
  match row.tender, row.parameter with
  | some tender, some parameter => some (tender, parameter)
  | _, _ => none

/-- The constraints on keys under which the tables are stored, as far as a price depends on them. -/
structure UniqueKeys (t : Tables α) : Prop where
  tenders : Distinct (fun row => some row.id) t.tenders
  tactics : Distinct (fun row => some row.id) t.tactics
  parameters : Distinct (fun row => some row.id) t.parameters
  parameterKeys : Distinct (fun row => some row.key) t.parameters
  percentages : Distinct PercentageRow.key t.percentages
  distributions : Distinct DistributionRow.tender t.distributions

variable {t t' : Tables α} {id : String}

theorem tender?_of_sameRows (keys : UniqueKeys t) (same : SameRows t t') :
    t'.tender? id = t.tender? id := by
  refine find?_perm (fun x hx y hy hpx hpy => ?_) same.tenders
  rw [decide_eq_true_eq] at hpx hpy
  exact keys.tenders.eq hx hy (congrArg some hpx) (congrArg some hpy)

theorem tactic?_of_sameRows (keys : UniqueKeys t) (same : SameRows t t') :
    t'.tactic? id = t.tactic? id := by
  refine find?_perm (fun x hx y hy hpx hpy => ?_) same.tactics
  rw [decide_eq_true_eq] at hpx hpy
  exact keys.tactics.eq hx hy (congrArg some hpx) (congrArg some hpy)

theorem distributionOf?_of_sameRows (keys : UniqueKeys t) (same : SameRows t t') :
    t'.distributionOf? id = t.distributionOf? id := by
  refine find?_perm (fun x hx y hy hpx hpy => ?_) same.distributions
  rw [beq_iff_eq] at hpx hpy
  exact keys.distributions.eq hx hy hpx hpy

theorem findTactic_of_sameRows (keys : UniqueKeys t) (same : SameRows t t') :
    findTactic t' id = findTactic t id := by
  simp only [findTactic, tender?_of_sameRows keys same, tactic?_of_sameRows keys same]

theorem contains_excludedCategories_of_sameRows (same : SameRows t t')
    (kind category : String) :
    (t'.excludedCategories id kind).contains category =
      (t.excludedCategories id kind).contains category :=
  (((same.exclusions.filter _).filterMap _).contains_eq).symm

theorem covers_of_sameRows (same : SameRows t t') (item : Item α) :
    (t'.exclusionsOf id).covers item = (t.exclusionsOf id).covers item := by
  simp only [Exclusions.covers, Tables.exclusionsOf,
    contains_excludedCategories_of_sameRows same]

/-! ## Percentages in another order -/

/-- The percentages of a tender with the keys of their parameters, as the tables join them. -/
def joinedPercentages (t : Tables α) (id : String) : List (String × Option α) :=
  (t.percentages.filter (·.tender == some id)).flatMap fun row =>
    (t.parameters.filter fun p => row.parameter == some p.id).map fun p => (p.key, row.value)

theorem percentagesOf_eq (t : Tables α) (id : String) :
    t.percentagesOf id =
      if (joinedPercentages t id).isEmpty then none else some (joinedPercentages t id) := rfl

theorem joinedPercentages_perm (same : SameRows t t') (id : String) :
    (joinedPercentages t id).Perm (joinedPercentages t' id) :=
  (same.percentages.filter _).flatMap fun _ _ => (same.parameters.filter _).map _

theorem mem_keys_joined {row : PercentageRow α} {key : String} :
    key ∈ ((t.parameters.filter fun p => row.parameter == some p.id).map fun p =>
        (p.key, row.value)).map Prod.fst ↔
      ∃ p ∈ t.parameters, row.parameter = some p.id ∧ p.key = key := by
  simp [and_assoc]

theorem joinedPercentages_nodup (keys : UniqueKeys t) (id : String) :
    ((joinedPercentages t id).map Prod.fst).Nodup := by
  rw [joinedPercentages, List.map_flatMap, List.nodup_flatMap]
  constructor
  · intro row _
    have hkeys : (t.parameters.map (·.key)).Nodup := by
      simpa [Distinct] using keys.parameterKeys
    rw [List.map_map]
    exact hkeys.sublist (List.filter_sublist.map _)
  · have hpairs := (List.pairwise_filterMap.mp keys.percentages).filter (·.tender == some id)
    refine hpairs.imp_of_mem fun {row row'} hrow hrow' hne => ?_
    intro key hkey hkey'
    obtain ⟨p, hp, hparameter, hpkey⟩ := mem_keys_joined.mp hkey
    obtain ⟨p', hp', hparameter', hpkey'⟩ := mem_keys_joined.mp hkey'
    have hsame : p' = p :=
      keys.parameterKeys.eq hp' hp (congrArg some hpkey') (congrArg some hpkey)
    rw [hsame] at hparameter'
    have htender : row.tender = some id := by simpa using (List.mem_filter.mp hrow).2
    have htender' : row'.tender = some id := by simpa using (List.mem_filter.mp hrow').2
    have hrowKey : PercentageRow.key row = some (id, p.id) := by
      simp [PercentageRow.key, htender, hparameter]
    have hrowKey' : PercentageRow.key row' = some (id, p.id) := by
      simp [PercentageRow.key, htender', hparameter']
    exact hne _ hrowKey _ hrowKey' rfl

/-- The percentages that are given, each as something that is stored. -/
def givenPercentages (values : List (String × Option α)) : List (String × Option α) :=
  (values.filterMap fun (key, value) => value.map (key, ·)).map fun (key, value) =>
    (key, some value)

theorem givenPercentages_nodup {values : List (String × Option α)}
    (distinct : (values.map Prod.fst).Nodup) :
    ((givenPercentages values).map Prod.fst).Nodup := by
  rw [givenPercentages, List.map_map, List.Nodup, List.pairwise_map, List.pairwise_filterMap]
  rw [List.Nodup, List.pairwise_map] at distinct
  refine distinct.imp fun {entry entry'} hne given hgiven given' hgiven' => ?_
  obtain ⟨value, -, hvalue⟩ := Option.map_eq_some_iff.mp hgiven
  obtain ⟨value', -, hvalue'⟩ := Option.map_eq_some_iff.mp hgiven'
  rw [← hvalue, ← hvalue']
  exact hne

variable [Arithmetic α]

theorem ofTable_perm {values values' : List (String × Option α)}
    (distinct : (values.map Prod.fst).Nodup) (same : values.Perm values') :
    Rates.ofTable ((Keyed.ofList values').filterMap fun (key, value) => value.map (key, ·)) =
      Rates.ofTable ((Keyed.ofList values).filterMap fun (key, value) => value.map (key, ·)) := by
  have distinct' : (values'.map Prod.fst).Nodup := (same.map Prod.fst).nodup_iff.mp distinct
  have hperm : (givenPercentages values).Perm (givenPercentages values') :=
    (same.filterMap _).map _
  rw [Keyed.ofList_of_nodup distinct, Keyed.ofList_of_nodup distinct']
  funext key
  have hlookup := Keyed.lookup_perm (givenPercentages_nodup distinct) hperm key
  show Rates.ofList (givenPercentages values') key = Rates.ofList (givenPercentages values) key
  rw [Rates.ofList, Rates.ofList, hlookup]

/-- The percentages of a tender are in force in every order of rows, or in none. -/
theorem loadPercentages_of_sameRows (keys : UniqueKeys t) (same : SameRows t t') :
    Together (fun table table' => Rates.ofTable table' = Rates.ofTable table)
      (loadPercentages t id).result (loadPercentages t' id).result := by
  unfold loadPercentages
  rw [tender?_of_sameRows keys same]
  cases t.tender? id with
  | none => exact rfl
  | some row =>
    have hperm := joinedPercentages_perm same id
    rw [percentagesOf_eq, percentagesOf_eq, ← hperm.isEmpty_eq]
    by_cases hempty : (joinedPercentages t id).isEmpty = true
    · rw [if_pos hempty, if_pos hempty]
      exact rfl
    · rw [if_neg hempty, if_neg hempty]
      exact ofTable_perm (joinedPercentages_nodup keys id) hperm

/-! ## Contexts in another order -/

/-- The contexts price every item alike. -/
structure SamePrices (ctx ctx' : Context α) : Prop where
  tender : ctx'.tender = ctx.tender
  tactic : ctx'.tactic = ctx.tactic
  rates : ctx'.rates = ctx.rates
  distribution : ctx'.distribution = ctx.distribution
  covers : ∀ item : Item α, ctx'.exclusions.covers item = ctx.exclusions.covers item

theorem loadContext_of_sameRows {ctx : Context α} (keys : UniqueKeys t) (same : SameRows t t')
    (loaded : (loadContext t id false).result = .ok ctx) :
    ∃ ctx', (loadContext t' id false).result = .ok ctx' ∧ SamePrices ctx ctx' := by
  obtain ⟨row, tactic, percentages, distribution, hrow, htactic, hpercentages, hdistribution,
    hctx⟩ := loadContext_eq_ok_iff.mp loaded
  obtain ⟨percentages', hpercentages', hrates⟩ :=
    (loadPercentages_of_sameRows keys same).ok hpercentages
  have hdistribution' : loadDistribution t' id = loadDistribution t id := by
    rw [loadDistribution, loadDistribution, distributionOf?_of_sameRows keys same]
  refine ⟨_, loadContext_eq_ok_iff.mpr ⟨row, tactic, percentages', distribution, ?_, htactic,
    hpercentages', ?_, rfl⟩, ?_⟩
  · rw [findTactic_of_sameRows keys same, hrow]
  · rw [hdistribution', hdistribution]
  · rw [hctx]
    exact ⟨rfl, rfl, hrates, rfl, fun item => covers_of_sameRows same item⟩

namespace SamePrices

variable {ctx ctx' : Context α}

theorem rowCost (h : SamePrices ctx ctx') (row : ItemRow α) :
    rowCost ctx' row = rowCost ctx row := by
  simp only [Store.rowCost, h.tactic, h.rates, h.distribution, h.covers]

theorem costOf? (h : SamePrices ctx ctx') (row : ItemRow α) :
    costOf? ctx' row = costOf? ctx row := by
  simp only [Store.costOf?, h.tender, h.rowCost]

theorem priceable {rows rows' : List (ItemRow α)} (h : SamePrices ctx ctx')
    (same : rows.Perm rows') (priceable : Priceable ctx rows) : Priceable ctx' rows' := by
  intro row hrow own
  rw [h.tender] at own
  rw [h.rowCost]
  exact priceable row (same.mem_iff.mpr hrow) own

theorem costsAt {rows rows' : List (ItemRow α)} (h : SamePrices ctx ctx')
    (same : rows.Perm rows') (position : String) :
    (costsAt ctx rows position).Perm (costsAt ctx' rows' position) := by
  rw [Store.costsAt, Store.costsAt, funext h.costOf?]
  exact (same.filter _).filterMap _

end SamePrices

end Tables
end Store
end TenderPricing
