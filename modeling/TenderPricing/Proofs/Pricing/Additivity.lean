import Mathlib.Tactic.Ring
import TenderPricing.Proofs.Keyed
import TenderPricing.Proofs.Pricing.Credits
/-!
The totals of a tender as a sum over its items.

The figures of a tender are its totals without the order in which parameters and item types came
up.  They can be added, and each item adds the figures that it has on its own to whatever has been
added before.  So the figures of two tenders together are the sum of theirs, and the order of the
items makes no difference to them.
-/
namespace TenderPricing
namespace Pricing

open Markup

/-! ## Figures -/

section Merge

variable {M : Type} [AddCommMonoid M]

theorem merge_add_assoc (x y z : Option M) :
    (x.merge (· + ·) y).merge (· + ·) z = x.merge (· + ·) (y.merge (· + ·) z) :=
  (inferInstance : Std.Associative (Option.merge (α := M) (· + ·))).assoc x y z

theorem merge_add_comm (x y : Option M) : x.merge (· + ·) y = y.merge (· + ·) x :=
  (inferInstance : Std.Commutative (Option.merge (α := M) (· + ·))).comm x y

end Merge

/-- The figures of a parameter.  An item type that it was never credited under has none. -/
@[ext]
structure ParameterFigures where
  markupAmount : Rat
  itemCount : Nat
  stepsCount : Nat
  byItemType : String → Option Rat

namespace ParameterFigures

instance : Add ParameterFigures where
  add p q :=
    { markupAmount := p.markupAmount + q.markupAmount
      itemCount := p.itemCount + q.itemCount
      stepsCount := p.stepsCount + q.stepsCount
      byItemType := fun type => (p.byItemType type).merge (· + ·) (q.byItemType type) }

instance : Zero ParameterFigures where
  zero := ⟨0, 0, 0, fun _ => none⟩

instance : AddCommMonoid ParameterFigures where
  add_assoc p q r := ParameterFigures.ext (add_assoc _ _ _) (Nat.add_assoc _ _ _)
    (Nat.add_assoc _ _ _) (funext fun _ => merge_add_assoc _ _ _)
  zero_add p := ParameterFigures.ext (zero_add _) (Nat.zero_add _) (Nat.zero_add _)
    (funext fun _ => Option.merge_none_left)
  add_zero p := ParameterFigures.ext (add_zero _) (Nat.add_zero _) (Nat.add_zero _)
    (funext fun _ => Option.merge_none_right)
  add_comm p q := ParameterFigures.ext (add_comm _ _) (Nat.add_comm _ _) (Nat.add_comm _ _)
    (funext fun _ => merge_add_comm _ _)
  nsmul := nsmulRec

end ParameterFigures

/-- The figures of a tender.  A parameter that was never credited has none. -/
@[ext]
structure Figures where
  totalBase : Rat
  totalCommercial : Rat
  directCost : ItemType → Rat
  parameter : String → Option ParameterFigures

namespace Figures

instance : Add Figures where
  add x y :=
    { totalBase := x.totalBase + y.totalBase
      totalCommercial := x.totalCommercial + y.totalCommercial
      directCost := fun type => x.directCost type + y.directCost type
      parameter := fun key => (x.parameter key).merge (· + ·) (y.parameter key) }

instance : Zero Figures where
  zero := ⟨0, 0, fun _ => 0, fun _ => none⟩

instance : AddCommMonoid Figures where
  add_assoc x y z := Figures.ext (add_assoc _ _ _) (add_assoc _ _ _)
    (funext fun _ => add_assoc _ _ _) (funext fun _ => merge_add_assoc _ _ _)
  zero_add x := Figures.ext (zero_add _) (zero_add _) (funext fun _ => zero_add _)
    (funext fun _ => Option.merge_none_left)
  add_zero x := Figures.ext (add_zero _) (add_zero _) (funext fun _ => add_zero _)
    (funext fun _ => Option.merge_none_right)
  add_comm x y := Figures.ext (add_comm _ _) (add_comm _ _) (funext fun _ => add_comm _ _)
    (funext fun _ => merge_add_comm _ _)
  nsmul := nsmulRec

end Figures

/-- The direct cost of an item type. -/
def DirectCosts.ofType {α : Type} (d : DirectCosts α) : ItemType → α
  | .subcontractWork => d.subcontractWorks
  | .subcontractMaterial => d.subcontractMaterials
  | .work => d.works
  | .material => d.materials
  | .workComponent => d.workComponents
  | .materialComponent => d.materialComponents

def ParameterTotal.figures (p : ParameterTotal Rat) : ParameterFigures where
  markupAmount := p.markupAmount
  itemCount := p.itemCount
  stepsCount := p.stepsCount
  byItemType type := p.byItemType.lookup type

def figuresFor (table : Keyed String (ParameterTotal Rat)) (key : String) :
    Option ParameterFigures :=
  (table.lookup key).map (·.figures)

def Aggregation.figures (a : Aggregation Rat) : Figures where
  totalBase := a.totalBase
  totalCommercial := a.totalCommercial
  directCost := a.directCosts.ofType
  parameter := figuresFor a.byParameter

/-! ## What one item adds -/

theorem ParameterTotal.figures_zero : (ParameterTotal.zero : ParameterTotal Rat).figures = 0 :=
  ParameterFigures.ext Arithmetic.exact_zero rfl rfl rfl

/-- A credit adds the same to every total: what it makes of no credit at all. -/
theorem ParameterTotal.figures_credit (p : ParameterTotal Rat) (itemType : String) (amount : Rat)
    (newItem : Bool) :
    (p.credit itemType amount newItem).figures =
      p.figures + (ParameterTotal.zero.credit itemType amount newItem).figures := by
  refine ParameterFigures.ext ?_ ?_ ?_ (funext fun type => ?_)
  · show p.markupAmount + amount = p.markupAmount + (0.0 + amount)
    rw [Arithmetic.exact_zero, zero_add]
  · cases newItem <;> rfl
  · rfl
  · show (p.byItemType.update itemType 0.0 (· + amount)).lookup type =
      (p.byItemType.lookup type).merge (· + ·)
        ((Keyed.update itemType 0.0 (· + amount) []).lookup type)
    by_cases htype : type = itemType
    · subst htype
      rw [Keyed.lookup_update_self, Keyed.lookup_update_self]
      cases p.byItemType.lookup type with
      | none => rfl
      | some present =>
        show some (present + amount) = some (present + (0.0 + amount))
        rw [Arithmetic.exact_zero, zero_add]
    · rw [Keyed.lookup_update_of_ne htype, Keyed.lookup_update_of_ne htype, List.lookup_nil,
        Option.merge_none_right]

theorem figuresFor_update (name itemType : String) (amount : Rat) (newItem : Bool) (key : String)
    (table : Keyed String (ParameterTotal Rat)) :
    figuresFor (table.update name .zero (·.credit itemType amount newItem)) key =
      (figuresFor table key).merge (· + ·)
        (figuresFor (Keyed.update name .zero (·.credit itemType amount newItem) []) key) := by
  unfold figuresFor
  by_cases hkey : key = name
  · subst hkey
    rw [Keyed.lookup_update_self, Keyed.lookup_update_self, Option.map_some,
      ParameterTotal.figures_credit]
    cases table.lookup key with
    | none =>
      rw [Option.getD_none, ParameterTotal.figures_zero, zero_add]
      rfl
    | some present => rfl
  · rw [Keyed.lookup_update_of_ne hkey, Keyed.lookup_update_of_ne hkey, List.lookup_nil,
      Option.map_none, Option.merge_none_right]

/-- The credits of an item add the same to every table: what they make of the empty one. -/
theorem figuresFor_bookCredits (itemType key : String) {credits : List (String × Rat)} :
    ∀ (seen : List String) (table : Keyed String (ParameterTotal Rat)),
      figuresFor (bookCredits itemType seen credits table) key =
        (figuresFor table key).merge (· + ·)
          (figuresFor (bookCredits itemType seen credits []) key) := by
  induction credits with
  | nil =>
    intro seen table
    exact Option.merge_none_right.symm
  | cons credit rest ih =>
    intro seen table
    obtain ⟨name, amount⟩ := credit
    -- the table that the rest of the credits meet is not the empty one on either side
    rw [bookCredits, bookCredits, ih, figuresFor_update,
      ih _ (Keyed.update name .zero (·.credit itemType amount (!seen.contains name)) [])]
    exact merge_add_assoc _ _ _

theorem DirectCosts.ofType_credit (d : DirectCosts Rat) (label : String) (amount : Rat)
    (type : ItemType) :
    (d.credit label amount).ofType type =
      d.ofType type + if ItemType.ofLabel? label = some type then amount else 0 := by
  unfold DirectCosts.credit
  cases ItemType.ofLabel? label with
  | none => simp
  | some named => cases named <;> cases type <;> simp [DirectCosts.ofType]

section Items

variable {tactic : Tactic Rat} {rates : Rates Rat} {exclusions : Exclusions} {withDetails : Bool}

theorem Aggregation.figures_zero : (Aggregation.zero : Aggregation Rat).figures = 0 := by
  refine Figures.ext Arithmetic.exact_zero Arithmetic.exact_zero (funext fun type => ?_) rfl
  cases type <;> exact Arithmetic.exact_zero

/-- A priced item adds the same to every tender: what it makes of the empty one. -/
theorem Aggregation.figures_addPriced (a : Aggregation Rat) (item : Item Rat)
    (e : Evaluation Rat) :
    (a.addPriced tactic withDetails item e).figures =
      a.figures + (Aggregation.zero.addPriced tactic withDetails item e).figures := by
  refine Figures.ext ?_ ?_ (funext fun type => ?_) (funext fun key => ?_)
  · show a.totalBase + item.baseAmount = a.totalBase + (0.0 + item.baseAmount)
    rw [Arithmetic.exact_zero, zero_add]
  · show a.totalCommercial + e.finalValue = a.totalCommercial + (0.0 + e.finalValue)
    rw [Arithmetic.exact_zero, zero_add]
  · have hzero : (DirectCosts.zero : DirectCosts Rat).ofType type = 0 := by
      cases type <;> exact Arithmetic.exact_zero
    show (a.directCosts.credit item.itemType item.baseAmount).ofType type =
      a.directCosts.ofType type +
        (DirectCosts.zero.credit item.itemType item.baseAmount).ofType type
    rw [DirectCosts.ofType_credit, DirectCosts.ofType_credit DirectCosts.zero, hzero, zero_add]
  · exact figuresFor_bookCredits item.itemType key [] a.byParameter

theorem Aggregation.itemDetails_addPriced (a : Aggregation Rat) (item : Item Rat)
    (e : Evaluation Rat) :
    (a.addPriced tactic withDetails item e).itemDetails =
      a.itemDetails ++ (Aggregation.zero.addPriced tactic withDetails item e).itemDetails := by
  unfold Aggregation.addPriced
  cases withDetails && !(tactic.sequenceFor item.itemType).isEmpty with
  | true => rfl
  | false => exact (List.append_nil _).symm

/-- The figures and the details of a tender are those of its parts put together. -/
structure Aggregation.IsSumOf (total : Aggregation Rat) (parts : List (Aggregation Rat)) :
    Prop where
  figures : total.figures = (parts.map (·.figures)).sum
  itemDetails : total.itemDetails = parts.flatMap (·.itemDetails)

namespace Aggregation.IsSumOf

variable {a b total : Aggregation Rat} {parts parts' : List (Aggregation Rat)}

/-- The first two parts of a tender may be put together before the others. -/
theorem cons_cons {part next : Aggregation Rat} (first : next.IsSumOf [a, part])
    (later : total.IsSumOf (next :: parts)) : total.IsSumOf (a :: part :: parts) where
  figures := by
    rw [later.figures, List.map_cons, List.sum_cons, first.figures]
    simp [add_assoc]
  itemDetails := by
    rw [later.itemDetails, List.flatMap_cons, first.itemDetails]
    simp

theorem of_zero (h : total.IsSumOf (.zero :: parts)) : total.IsSumOf parts where
  figures := by
    rw [h.figures, List.map_cons, List.sum_cons, Aggregation.figures_zero, zero_add]
  itemDetails := h.itemDetails

theorem figures_append (ha : a.IsSumOf parts) (hb : b.IsSumOf parts')
    (h : total.IsSumOf (parts ++ parts')) : total.figures = a.figures + b.figures := by
  rw [h.figures, ha.figures, hb.figures, List.map_append, List.sum_append]

theorem itemDetails_append (ha : a.IsSumOf parts) (hb : b.IsSumOf parts')
    (h : total.IsSumOf (parts ++ parts')) : total.itemDetails = a.itemDetails ++ b.itemDetails := by
  rw [h.itemDetails, ha.itemDetails, hb.itemDetails, List.flatMap_append]

end Aggregation.IsSumOf

/-- An item is refused by itself where it is refused behind others, and else it adds what it comes
to by itself. -/
theorem addItem_together (a : Aggregation Rat) (item : Item Rat) :
    Together (fun part total => total.IsSumOf [a, part])
      (Aggregation.addItem tactic rates exclusions withDetails .zero item)
      (Aggregation.addItem tactic rates exclusions withDetails a item) := by
  rw [addItem_eq, addItem_eq]
  by_cases positive : 0 < item.baseAmount
  · rw [if_pos positive, if_pos positive]
    cases evaluate (stepsOf tactic exclusions item) item.baseAmount rates item.itemType with
    | error failure => exact rfl
    | ok e =>
      refine ⟨?_, ?_⟩
      · simpa using Aggregation.figures_addPriced a item e
      · simpa using Aggregation.itemDetails_addPriced a item e
  · rw [if_neg positive, if_neg positive]
    refine ⟨?_, ?_⟩
    · simp [Aggregation.figures_zero]
    · simp [Aggregation.zero]

theorem foldlM_addItem_together {items : List (Item Rat)} :
    ∀ (a : Aggregation Rat),
      Together (fun parts total => total.IsSumOf (a :: parts))
        (items.mapM (Aggregation.addItem tactic rates exclusions withDetails .zero))
        (items.foldlM (Aggregation.addItem tactic rates exclusions withDetails) a) := by
  induction items with
  | nil =>
    intro a
    exact ⟨by simp, by simp⟩
  | cons item rest ih =>
    intro a
    rw [List.mapM_cons, List.foldlM_cons]
    refine (addItem_together a item).bind fun part next hnext => ?_
    rw [← bind_pure (rest.foldlM _ next)]
    exact (ih next).bind fun parts total htotal => hnext.cons_cons htotal

/-- A tender is the sum of its items, each aggregated by itself. -/
theorem aggregate_together (items : List (Item Rat)) :
    Together (fun parts total => total.IsSumOf parts)
      (items.mapM (Aggregation.addItem tactic rates exclusions withDetails .zero))
      (aggregate items tactic rates exclusions withDetails) :=
  (foldlM_addItem_together .zero).mono fun _ _ h => h.of_zero

end Items

/-! ## Totals within one tender -/

/-- Totals that agree with each other: the amounts by item type make up the markup, and an item
counts only with a step of it. -/
structure ParameterTotal.Consistent (p : ParameterTotal Rat) : Prop where
  byItemType : (p.byItemType.map (·.2)).sum = p.markupAmount
  itemCount : p.itemCount ≤ p.stepsCount

theorem ParameterTotal.zero_consistent : (ParameterTotal.zero : ParameterTotal Rat).Consistent where
  byItemType := Arithmetic.exact_zero.symm
  itemCount := Nat.le_refl 0

theorem ParameterTotal.credit_consistent {p : ParameterTotal Rat} (h : p.Consistent)
    (itemType : String) (amount : Rat) (newItem : Bool) :
    (p.credit itemType amount newItem).Consistent where
  byItemType := by
    have hadd : ∀ present : Rat, present + amount = present + amount := fun _ => rfl
    have hsum := Keyed.sum_map_update (f := id) Arithmetic.exact_zero hadd itemType p.byItemType
    exact hsum.trans (congrArg (· + amount) h.byItemType)
  itemCount := by
    have hcount := h.itemCount
    show (if newItem then p.itemCount + 1 else p.itemCount) ≤ p.stepsCount + 1
    split <;> omega

theorem bookCredits_consistent (itemType : String) {credits : List (String × Rat)} :
    ∀ (seen : List String) {table : Keyed String (ParameterTotal Rat)},
      (∀ entry ∈ table, entry.2.Consistent) →
        ∀ entry ∈ bookCredits itemType seen credits table, entry.2.Consistent := by
  induction credits with
  | nil => exact fun _ _ h => h
  | cons credit rest ih =>
    intro seen table h
    obtain ⟨key, amount⟩ := credit
    rw [bookCredits]
    refine ih _ (Keyed.forall_update h ParameterTotal.zero_consistent fun p hp => ?_)
    exact ParameterTotal.credit_consistent hp itemType amount _

theorem DirectCosts.total_credit (d : DirectCosts Rat) (label : String) (amount : Rat) :
    (d.credit label amount).total =
      d.total + if ItemType.ofLabel? label = none then 0 else amount := by
  unfold DirectCosts.credit
  cases ItemType.ofLabel? label with
  | none => simp
  | some type => cases type <;> simp [DirectCosts.total] <;> ring

/-- The amounts of the priced items whose label names no type. -/
def unplacedBase (items : List (Item Rat)) : Rat :=
  ((items.filter fun item =>
    0 < item.baseAmount ∧ ItemType.ofLabel? item.itemType = none).map (·.baseAmount)).sum

theorem unplacedBase_cons (item : Item Rat) (rest : List (Item Rat)) :
    unplacedBase (item :: rest) =
      (if 0 < item.baseAmount ∧ ItemType.ofLabel? item.itemType = none then item.baseAmount
        else 0) + unplacedBase rest := by
  unfold unplacedBase
  rw [List.filter_cons]
  by_cases h : 0 < item.baseAmount ∧ ItemType.ofLabel? item.itemType = none
  · simp [h]
  · rw [if_neg h, if_neg (by simpa using h), zero_add]

section Items

variable {tactic : Tactic Rat} {rates : Rates Rat} {exclusions : Exclusions} {withDetails : Bool}

theorem addItem_consistent {a a' : Aggregation Rat} {item : Item Rat}
    (before : ∀ entry ∈ a.byParameter, entry.2.Consistent)
    (h : Aggregation.addItem tactic rates exclusions withDetails a item = .ok a') :
    ∀ entry ∈ a'.byParameter, entry.2.Consistent := by
  obtain ⟨e, -, hbooked⟩ := addItem_runs h
  rw [hbooked]
  exact bookCredits_consistent item.itemType [] before

theorem addItem_directCosts {a a' : Aggregation Rat} {item : Item Rat}
    (h : Aggregation.addItem tactic rates exclusions withDetails a item = .ok a') :
    a'.totalBase - a'.directCosts.total = a.totalBase - a.directCosts.total +
      if 0 < item.baseAmount ∧ ItemType.ofLabel? item.itemType = none then item.baseAmount
      else 0 := by
  rw [addItem_eq] at h
  by_cases positive : 0 < item.baseAmount
  · rw [if_pos positive, bind_eq_ok_iff] at h
    obtain ⟨e, -, h⟩ := h
    rw [pure_eq_ok_iff] at h
    subst h
    show a.totalBase + item.baseAmount - (a.directCosts.credit _ _).total = _
    rw [DirectCosts.total_credit]
    by_cases hlabel : ItemType.ofLabel? item.itemType = none
    · rw [if_pos hlabel, if_pos ⟨positive, hlabel⟩]
      ring
    · rw [if_neg hlabel, if_neg fun both => hlabel both.2]
      ring
  · rw [if_neg positive, Except.ok.injEq] at h
    rw [if_neg fun both => positive both.1, h, add_zero]

theorem foldlM_addItem_directCosts {items : List (Item Rat)} :
    ∀ {a a' : Aggregation Rat},
      items.foldlM (Aggregation.addItem tactic rates exclusions withDetails) a = .ok a' →
        a'.totalBase - a'.directCosts.total =
          a.totalBase - a.directCosts.total + unplacedBase items := by
  induction items with
  | nil =>
    intro a a' h
    rw [List.foldlM_nil, pure_eq_ok_iff] at h
    simp [unplacedBase, h]
  | cons item rest ih =>
    intro a a' h
    rw [List.foldlM_cons, bind_eq_ok_iff] at h
    obtain ⟨next, hnext, h⟩ := h
    rw [ih h, addItem_directCosts hnext, unplacedBase_cons, add_assoc]

variable (tactic rates exclusions withDetails) in
/-- The figures of two tenders together are the sum of theirs, and their details follow each other;
so the order of the items makes no difference to the figures.  In each tender the amounts of a
parameter by item type make up its markup, it counts no more items than steps, and the direct costs
make up the base amount but for the items whose label names no type. -/
theorem aggregate_additive :
    (∀ (xs ys : List (Item Rat)) (a b : Aggregation Rat),
      aggregate xs tactic rates exclusions withDetails = .ok a →
      aggregate ys tactic rates exclusions withDetails = .ok b →
        ∃ c, aggregate (xs ++ ys) tactic rates exclusions withDetails = .ok c ∧
          c.figures = a.figures + b.figures ∧ c.itemDetails = a.itemDetails ++ b.itemDetails) ∧
    (∀ (xs ys : List (Item Rat)) (a : Aggregation Rat), xs.Perm ys →
      aggregate xs tactic rates exclusions withDetails = .ok a →
        ∃ b, aggregate ys tactic rates exclusions withDetails = .ok b ∧
          b.figures = a.figures ∧ b.itemDetails.Perm a.itemDetails) ∧
    ∀ (items : List (Item Rat)) (a : Aggregation Rat),
      aggregate items tactic rates exclusions withDetails = .ok a →
        (∀ entry ∈ a.byParameter, entry.2.Consistent) ∧
          a.directCosts.total = a.totalBase - unplacedBase items := by
  refine ⟨fun xs ys a b ha hb => ?_, fun xs ys a same ha => ?_, fun items a ha => ⟨?_, ?_⟩⟩
  · obtain ⟨parts, hparts, hsum⟩ := (aggregate_together xs).of_ok ha
    obtain ⟨parts', hparts', hsum'⟩ := (aggregate_together ys).of_ok hb
    have hboth : (xs ++ ys).mapM
        (Aggregation.addItem tactic rates exclusions withDetails .zero) =
          .ok (parts ++ parts') := by
      rw [List.mapM_append, hparts, hparts']
      rfl
    obtain ⟨c, hc, htotal⟩ := (aggregate_together (xs ++ ys)).ok hboth
    exact ⟨c, hc, hsum.figures_append hsum' htotal, hsum.itemDetails_append hsum' htotal⟩
  · obtain ⟨parts, hparts, hsum⟩ := (aggregate_together xs).of_ok ha
    obtain ⟨parts', hparts', hperm⟩ := mapM_perm same hparts
    obtain ⟨b, hb, hsum'⟩ := (aggregate_together ys).ok hparts'
    refine ⟨b, hb, ?_, ?_⟩
    · rw [hsum'.figures, hsum.figures]
      exact (hperm.map _).sum_eq
    · rw [hsum'.itemDetails, hsum.itemDetails]
      exact hperm.flatMap_right _
  · refine foldlM_ok_induction (P := fun a => ∀ entry ∈ a.byParameter, entry.2.Consistent)
      (fun item _ before after hbefore hadd => addItem_consistent hbefore hadd) ?_ ha
    simp [Aggregation.zero]
  · have h := foldlM_addItem_directCosts ha
    have hzero : (DirectCosts.zero : DirectCosts Rat).total = 0 := by decide +kernel
    have hstart : (Aggregation.zero : Aggregation Rat).totalBase -
        (Aggregation.zero : Aggregation Rat).directCosts.total = 0 := by decide +kernel
    rw [hstart, zero_add] at h
    rw [← h]
    ring

end Items

/-- Work with a profit; material with the profit and an overhead of its own. -/
def profitAndOverhead : Tactic Rat where
  sequences := [("раб", [⟨-1, [⟨.multiply, .rate "profit" .addOne⟩], .null⟩]),
    ("мат", [⟨-1, [⟨.multiply, .rate "overhead" .addOne⟩], .null⟩,
      ⟨0, [⟨.multiply, .rate "profit" .addOne⟩], .null⟩])]

def tenAndFive : Rates Rat := .ofList [("profit", some 10), ("overhead", some 5)]

def workItems : List (Item Rat) := [{ id := "1", itemType := "раб", totalAmount := some 100 }]

/-- Material, with which the overhead comes up, and an item of no known type. -/
def otherItems : List (Item Rat) :=
  [{ id := "2", itemType := "мат", totalAmount := some 40 },
    { id := "3", itemType := "other", totalAmount := some 7 }]

theorem aggregate_additive_profitAndOverhead :
    ∃ a b c d, aggregate workItems profitAndOverhead tenAndFive {} true = .ok a ∧
      aggregate otherItems profitAndOverhead tenAndFive {} true = .ok b ∧
      aggregate (workItems ++ otherItems) profitAndOverhead tenAndFive {} true = .ok c ∧
      aggregate (otherItems ++ workItems) profitAndOverhead tenAndFive {} true = .ok d ∧
      (c.figures = a.figures + b.figures ∧ c.itemDetails = a.itemDetails ++ b.itemDetails) ∧
      (d.figures = c.figures ∧ d.itemDetails.Perm c.itemDetails) ∧
      (∀ entry ∈ c.byParameter, entry.2.Consistent) ∧
      a.byParameter.map (·.1) = ["profit"] ∧ b.byParameter.map (·.1) = ["overhead", "profit"] ∧
      c.directCosts.total = 140 ∧ unplacedBase (workItems ++ otherItems) = 7 := by
  obtain ⟨additive, unordered, within⟩ :=
    aggregate_additive profitAndOverhead tenAndFive {} true
  have hone : (aggregate workItems profitAndOverhead tenAndFive {} true).toOption.map
      (fun a => a.byParameter.map (·.1)) = some ["profit"] := by decide +kernel
  have htwo : (aggregate otherItems profitAndOverhead tenAndFive {} true).toOption.map
      (fun a => a.byParameter.map (·.1)) = some ["overhead", "profit"] := by decide +kernel
  have hbase : (aggregate (workItems ++ otherItems) profitAndOverhead tenAndFive
      {} true).toOption.map (·.totalBase) = some 147 := by decide +kernel
  have hunplaced : unplacedBase (workItems ++ otherItems) = 7 := by decide +kernel
  obtain ⟨a, ha, hprofit⟩ := Option.map_eq_some_iff.mp hone
  obtain ⟨b, hb, hboth⟩ := Option.map_eq_some_iff.mp htwo
  replace ha := eq_ok_of_toOption ha
  replace hb := eq_ok_of_toOption hb
  obtain ⟨c, hc, hsum⟩ := additive _ _ a b ha hb
  obtain ⟨d, hd, hsame⟩ := unordered _ _ c List.perm_append_comm hc
  obtain ⟨hconsistent, hdirect⟩ := within _ c hc
  rw [hc] at hbase
  refine ⟨a, b, c, d, ha, hb, hc, hd, hsum, hsame, hconsistent, hprofit, hboth, ?_, hunplaced⟩
  have htotal : c.totalBase = 147 := Option.some.inj hbase
  rw [hdirect, hunplaced, htotal]
  norm_num

end Pricing
end TenderPricing
