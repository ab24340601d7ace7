import Mathlib.Data.List.MinMax
import TenderPricing.Proofs.Number.Comparison
import TenderPricing.Transfer.AlternativeParent
/-!
The alternative to a deleted parent.

Both scans compare numbers only, so over numbers that are not NaN they are the library's `argmax`
and `argmin` by the place of a number among the doubles.  The positions before the deleted one and
those after it are looked through apart from each other, and a position that has the very number of
the deleted one is in neither part.  Such a position is never found.
-/
namespace TenderPricing
namespace Transfer

open Matching Number

/-! ## Scans -/

section Scans

theorem foldl_eq_argAux {β : Type} {r : β → β → Prop} [DecidableRel r] {l : List β}
    {step : Option β → β → Option β} (hnone : ∀ p, step none p = some p)
    (hsome : ∀ p ∈ l, ∀ q ∈ l, step (some q) p = if r p q then some p else some q) :
    l.foldl step none = l.foldl (List.argAux r) none := by
  -- what the scan holds comes from the list, so it only ever compares two members
  suffices hscan : ∀ (rest : List β) (best : Option β), (∀ p ∈ rest, p ∈ l) → (∀ q ∈ best, q ∈ l) →
      rest.foldl step best = rest.foldl (List.argAux r) best from
    hscan l none (fun _ hp => hp) nofun
  intro rest
  induction rest with
  | nil => exact fun _ _ _ => rfl
  | cons p rest ih =>
    intro best hrest hbest
    obtain ⟨hp, hrest⟩ := List.forall_mem_cons.mp hrest
    rw [List.foldl_cons, List.foldl_cons]
    cases best with
    | none =>
      rw [hnone]
      exact ih (some p) hrest (by simpa using hp)
    | some q =>
      have hq := hbest q rfl
      rw [hsome p hp q hq]
      show List.foldl step (if r p q then some p else some q) rest =
        List.foldl (List.argAux r) (if r p q then some p else some q) rest
      by_cases hr : r p q
      · rw [if_pos hr]
        exact ih (some p) hrest (by simpa using hp)
      · rw [if_neg hr]
        exact ih (some q) hrest (by simpa using hq)

variable {positions : List (Position Float)}

theorem highest?_eq_argmax (numbers : ∀ p ∈ positions, p.number.isNaN = false) :
    highest? positions = positions.argmax fun p => Double.place p.number := by
  apply foldl_eq_argAux (fun _ => rfl)
  intro p hp q hq
  apply if_congr _ rfl rfl
  exact Double.lt_iff.trans (and_iff_right ⟨numbers q hq, numbers p hp⟩)

theorem lowest?_eq_argmin (numbers : ∀ p ∈ positions, p.number.isNaN = false) :
    lowest? positions = positions.argmin fun p => Double.place p.number := by
  apply foldl_eq_argAux (fun _ => rfl)
  intro p hp q hq
  apply if_congr _ rfl rfl
  exact Double.lt_iff.trans (and_iff_right ⟨numbers p hp, numbers q hq⟩)

end Scans

/-! ## Both sides of a position -/

variable {deleted p q : Position Float} {positions : List (Position Float)}

/-- The positions of the section of `deleted` whose numbers are on one side. -/
def peers (deleted : Position Float) (positions : List (Position Float)) (side : Float → Prop)
    [DecidablePred side] : List (Position Float) :=
  (sameSection deleted positions).filter fun p => decide (side p.number)

theorem mem_peers {side : Float → Prop} [DecidablePred side] :
    q ∈ peers deleted positions side ↔
      q ∈ positions ∧ q.itemNo = deleted.itemNo ∧ side q.number := by
  rw [peers, sameSection, List.mem_filter, List.mem_filter, decide_eq_true_iff, decide_eq_true_iff,
    and_assoc]

theorem peers_eq_nil_iff {side : Float → Prop} [DecidablePred side] :
    peers deleted positions side = [] ↔
      ∀ q ∈ positions, q.itemNo = deleted.itemNo → ¬ side q.number := by
  rw [List.eq_nil_iff_forall_not_mem]
  simp only [mem_peers, not_and]

/-- The last of the section before the deleted position, or else the first after it. -/
theorem alternativeParent?_eq (hsection : deleted.itemNo.getD "" ≠ "") :
    alternativeParent? deleted positions =
      ((peers deleted positions (· < deleted.number)).argmax fun p => Double.place p.number).or
        ((peers deleted positions (deleted.number < ·)).argmin fun p => Double.place p.number) := by
  have hbefore (p) (hp : p ∈ peers deleted positions (· < deleted.number)) :
      p.number.isNaN = false := (Double.lt_iff.mp (mem_peers.mp hp).2.2).1.1
  have hafter (p) (hp : p ∈ peers deleted positions (deleted.number < ·)) :
      p.number.isNaN = false := (Double.lt_iff.mp (mem_peers.mp hp).2.2).1.2
  rw [← highest?_eq_argmax hbefore, ← lowest?_eq_argmin hafter, alternativeParent?,
    if_neg hsection]
  dsimp only
  unfold peers
  split
  · rename_i hfound
    rw [hfound]
    rfl
  · rename_i hnone
    rw [hnone]
    rfl

/-! ## The nearest of a section -/

/-- What is expected of the position that takes the place of a deleted one: it is of the same
section, the last before the deleted one if there are any before, otherwise the first after. -/
structure Nearest (deleted : Position Float) (positions : List (Position Float))
    (p : Position Float) : Prop where
  mem : p ∈ positions
  itemNo : p.itemNo = deleted.itemNo
  last : (∃ q ∈ positions, q.itemNo = deleted.itemNo ∧ q.number < deleted.number) →
    p.number < deleted.number ∧ ∀ q ∈ positions, q.itemNo = deleted.itemNo →
      q.number < deleted.number → q.number ≤ p.number
  first : (∀ q ∈ positions, q.itemNo = deleted.itemNo → ¬ q.number < deleted.number) →
    deleted.number < p.number ∧ ∀ q ∈ positions, q.itemNo = deleted.itemNo →
      deleted.number < q.number → p.number ≤ q.number

theorem nearest_of_argmax (h : (peers deleted positions (· < deleted.number)).argmax
    (fun p => Double.place p.number) = some p) : Nearest deleted positions p := by
  obtain ⟨hp, hitem, hlt⟩ := mem_peers.mp (List.argmax_mem h)
  refine ⟨hp, hitem, fun _ => ⟨hlt, fun q hq hsame hbefore => ?_⟩, fun hnone => ?_⟩
  · have hplace := List.le_of_mem_argmax (mem_peers.mpr ⟨hq, hsame, hbefore⟩) h
    exact Double.le_iff.mpr ⟨⟨(Double.lt_iff.mp hbefore).1.1, (Double.lt_iff.mp hlt).1.1⟩, hplace⟩
  · exact absurd hlt (hnone p hp hitem)

theorem nearest_of_argmin (hnone : peers deleted positions (· < deleted.number) = [])
    (h : (peers deleted positions (deleted.number < ·)).argmin
      (fun p => Double.place p.number) = some p) : Nearest deleted positions p := by
  obtain ⟨hp, hitem, hlt⟩ := mem_peers.mp (List.argmin_mem h)
  refine ⟨hp, hitem, fun hsome => ?_, fun _ => ⟨hlt, fun q hq hsame hafter => ?_⟩⟩
  · obtain ⟨q, hq, hsame, hbefore⟩ := hsome
    exact absurd hbefore (peers_eq_nil_iff.mp hnone q hq hsame)
  · have hplace := List.le_of_mem_argmin (mem_peers.mpr ⟨hq, hsame, hafter⟩) h
    exact Double.le_iff.mpr ⟨⟨(Double.lt_iff.mp hlt).1.2, (Double.lt_iff.mp hafter).1.2⟩, hplace⟩

/-- The alternative is the nearest of its section, and there is none exactly where every position
of the section has the very number of the deleted one, or NaN makes them incomparable. -/
theorem alternative_is_nearest (hsection : deleted.itemNo.getD "" ≠ "")
    (positions : List (Position Float)) :
    (∀ p, alternativeParent? deleted positions = some p → Nearest deleted positions p) ∧
      (alternativeParent? deleted positions = none ↔
        ∀ q ∈ positions, q.itemNo = deleted.itemNo → (q.number == deleted.number) = true ∨
          q.number.isNaN = true ∨ deleted.number.isNaN = true) := by
  rw [alternativeParent?_eq hsection]
  constructor
  · intro p h
    rcases Option.or_eq_some_iff.mp h with hlast | ⟨hnone, hfirst⟩
    · exact nearest_of_argmax hlast
    · exact nearest_of_argmin (List.argmax_eq_none.mp hnone) hfirst
  · rw [Option.or_eq_none_iff, List.argmax_eq_none, List.argmin_eq_none, peers_eq_nil_iff,
      peers_eq_nil_iff]
    simp only [← Double.not_lt_and_not_gt_iff]
    constructor
    · exact fun h q hq hsame => ⟨h.1 q hq hsame, h.2 q hq hsame⟩
    · exact fun h => ⟨fun q hq hsame => (h q hq hsame).1, fun q hq hsame => (h q hq hsame).2⟩

/-- A cellar that is deleted. -/
def oldCellar : Position Float := { id := "cellar", itemNo := some "3", number := 5.0 }

/-- Four positions of the cellar's section, one with its number, and one of another section that
would be nearer. -/
def aroundCellar : List (Position Float) :=
  [{ id := "roof", itemNo := some "3", number := 7.0 },
    { id := "floor", itemNo := some "3", number := 2.0 },
    { id := "vault", itemNo := some "3", number := 5.0 },
    { id := "wall", itemNo := some "3", number := 4.0 },
    { id := "fence", itemNo := some "4", number := 4.5 }]

theorem alternative_is_nearest_aroundCellar :
    oldCellar.itemNo.getD "" ≠ "" ∧
      (∀ p, alternativeParent? oldCellar aroundCellar = some p →
        Nearest oldCellar aroundCellar p) ∧
      (alternativeParent? oldCellar aroundCellar = none ↔
        ∀ q ∈ aroundCellar, q.itemNo = oldCellar.itemNo → (q.number == oldCellar.number) = true ∨
          q.number.isNaN = true ∨ oldCellar.number.isNaN = true) ∧
      (alternativeParent? oldCellar aroundCellar).map (·.id) = some "wall" := by
  have hsection : oldCellar.itemNo.getD "" ≠ "" := by decide
  have h := alternative_is_nearest hsection aroundCellar
  exact ⟨hsection, h.1, h.2, by decide +kernel⟩

/-- In the new version the cellar is a vault with the same item number and the same number. -/
def newVault : List (Position Float) := [{ id := "vault", itemNo := some "3", number := 5.0 }]

/-- The vault is of the section of the cellar, yet no alternative is found. -/
theorem newVault_not_found :
    oldCellar.itemNo.getD "" ≠ "" ∧
      ¬ (alternativeParent? oldCellar newVault = none ↔
        ∀ q ∈ newVault, q.itemNo ≠ oldCellar.itemNo) := by
  have hnone : alternativeParent? oldCellar newVault = none :=
    Option.isNone_iff_eq_none.mp (by decide +kernel)
  refine ⟨by decide, fun h => ?_⟩
  exact absurd (h.mp hnone) (by decide)

end Transfer
end TenderPricing
