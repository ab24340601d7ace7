import TenderPricing.Proofs.Matching.Greedy
import TenderPricing.Proofs.Number.NotANumber
/-!
Scores that are NaN.

No comparison holds of NaN.  A first score that is NaN is therefore never replaced by a better one
and never refused by the floor, while later scores that are NaN are never taken.  So the floor
holds of all matches as long as no row meets NaN at the first position that is left to it, and an
infinite volume is enough for that.
-/
namespace TenderPricing
namespace Matching

open Number

/-! ## The first score decides -/

section Choice

variable {row : Row Float} {first p : Position Float} {free : List (Position Float)}

theorem foldl_better_of_isNaN (h : (score first row).total.isNaN = true) :
    free.foldl (better row) (some (first, score first row)) = some (first, score first row) := by
  induction free with
  | nil => rfl
  | cons next rest ih => rw [List.foldl_cons, better, if_neg (Double.not_lt_of_isNaN (.inl h)), ih]

/-- Only a number is better than another, so numbers are never given up for NaN. -/
theorem foldl_better_of_number :
    ∀ {first : Position Float}, (score first row).total.isNaN = false →
      free.foldl (better row) (some (first, score first row)) = some (p, score p row) →
      (score p row).total.isNaN = false := by
  induction free with
  | nil =>
    intro first h hfold
    obtain rfl : first = p := congrArg Prod.fst (Option.some.inj hfold)
    exact h
  | cons next rest ih =>
    intro first h hfold
    rw [List.foldl_cons, better] at hfold
    by_cases hlt : (score first row).total < (score next row).total
    · rw [if_pos hlt] at hfold
      exact ih (Double.lt_iff.mp hlt).1.2 hfold
    · rw [if_neg hlt] at hfold
      exact ih h hfold

theorem choice_of_isNaN (threshold : Float) (index : Nat)
    (h : (score first row).total.isNaN = true) :
    choice threshold index row (first :: free) =
      some ⟨first.id, index, score first row, .lowConfidence⟩ := by
  have hbest : bestFor row (first :: free) = some (first, score first row) :=
    foldl_better_of_isNaN h
  rw [choice_eq_some_iff]
  exact ⟨first, hbest, Double.not_le_of_isNaN (.inl h),
    by rw [if_neg (Double.not_le_of_isNaN (.inr h))]⟩

theorem choice_of_number {threshold : Float} {index : Nat} {m : Match Float}
    (h : (score first row).total.isNaN = false)
    (hm : choice threshold index row (first :: free) = some m) : 50.0 < m.score.total := by
  obtain ⟨p, hbest, hfloor, rfl⟩ := choice_eq_some_iff.mp hm
  exact (not_le_scoreFloor (foldl_better_of_number h hbest)).mp hfloor

end Choice

/-! ## Volumes -/

section Volumes

variable {v w : Float}

theorem isNaN_relativeProximity (h : v.isFinite = false ∨ w.isFinite = false) :
    (relativeProximity v w).isNaN = true := by
  have hdifference := Double.isNaN_relative h
  generalize hd : (v - w).abs / ((v.abs + w.abs) / 2.0) = d at hdifference
  have hshape : relativeProximity v w =
      if d < tightBand then 1.0 else if looseBand < d then 0.0
      else 1.0 - (d - tightBand) / (looseBand - tightBand) := by
    rw [← hd]
    rfl
  rw [hshape, if_neg (Double.not_lt_of_isNaN (.inl hdifference)),
    if_neg (Double.not_lt_of_isNaN (.inr hdifference))]
  exact Double.isNaN_sub_right (Double.isNaN_div_left (Double.isNaN_sub_left hdifference))

theorem isNaN_total {p : Position Float} {row : Row Float} (hp : p.volume = some v)
    (hrow : row.volume = some w) (hv : (v == 0.0) = false) (hw : (w == 0.0) = false)
    (h : v.isFinite = false ∨ w.isFinite = false) : (score p row).total.isNaN = true := by
  have hproximity : volumeProximity p.volume row.volume = relativeProximity v w := by
    rw [hp, hrow, volumeProximity, hv, hw]
    rfl
  have hvolume : (score p row).volume = relativeProximity v w * 10.0 := by
    rw [← hproximity]
    rfl
  refine Double.isNaN_add_right ?_
  rw [hvolume]
  exact Double.isNaN_mul_left (isNaN_relativeProximity h)

end Volumes

/-! ## All rows -/

/-- What the matches say of the floor at one row that `free` positions are left to. -/
structure FloorAt (index : Nat) (row : Row Float) (free : List (Position Float))
    (matched : List (Match Float)) : Prop where
  aboveFloor : ∀ first, free.head? = some first → (score first row).total.isNaN = false →
    ∀ m ∈ matched, m.rowIndex = (index : Int) → 50.0 < m.score.total
  exception : ∀ first, free.head? = some first → (score first row).total.isNaN = true →
    ∀ m, (m ∈ matched ∧ m.rowIndex = (index : Int)) ↔
      m = ⟨first.id, index, score first row, .lowConfidence⟩
  unmatched : free = [] → ∀ m ∈ matched, m.rowIndex ≠ (index : Int)

theorem floorAt_of_choice {index : Nat} {row : Row Float} {free : List (Position Float)}
    {threshold : Float} {matched : List (Match Float)}
    (h : ∀ m, (m ∈ matched ∧ m.rowIndex = (index : Int)) ↔
      choice threshold index row free = some m) : FloorAt index row free matched := by
  cases free with
  | nil =>
    refine ⟨?_, ?_, fun _ m hm hindex => ?_⟩
    · rintro _ ⟨⟩
    · rintro _ ⟨⟩
    · obtain ⟨p, hbest, -⟩ := choice_eq_some_iff.mp ((h m).mp ⟨hm, hindex⟩)
      cases hbest
  | cons first rest =>
    refine ⟨?_, ?_, nofun⟩
    · rintro _ ⟨⟩ hnumber m hm hindex
      exact choice_of_number hnumber ((h m).mp ⟨hm, hindex⟩)
    · rintro _ ⟨⟩ hnan m
      rw [h m, choice_of_isNaN threshold index hnan, Option.some.injEq, eq_comm]

/-- Nothing at or below the floor is matched, but a row whose score against the first position that
is left to it is NaN is matched to this position.  Volumes that are not finite lead there. -/
theorem assign_floor (positions : List (Position Float)) (rows : List (Row Float))
    (threshold : Float) :
    (∀ i row, rows[i]? = some row →
      FloorAt i row (unclaimed (assign positions rows threshold) i (candidates positions))
        (assign positions rows threshold)) ∧
    ((∀ m ∈ assign positions rows threshold, 50.0 < m.score.total) ↔
      ∀ (i : Nat) row first, rows[i]? = some row →
        (unclaimed (assign positions rows threshold) i (candidates positions)).head? = some first →
        (score first row).total.isNaN = false) ∧
    ∀ (p : Position Float) (row : Row Float) v w, p.volume = some v → row.volume = some w →
      (v == 0.0) = false → (w == 0.0) = false → v.isFinite = false ∨ w.isFinite = false →
      (score p row).total.isNaN = true := by
  have hfloor : ∀ i row, rows[i]? = some row →
      FloorAt i row (unclaimed (assign positions rows threshold) i (candidates positions))
        (assign positions rows threshold) :=
    fun i row hrow => floorAt_of_choice fun m => isMatch_iff_choice hrow
  refine ⟨hfloor, ⟨fun habove i row first hrow hfirst => ?_, fun hnumber m hm => ?_⟩,
    fun p row v w => isNaN_total⟩
  · cases hnan : (score first row).total.isNaN with
    | false => rfl
    | true =>
      have hmatch := ((hfloor i row hrow).exception first hfirst hnan _).mpr rfl
      exact absurd (habove _ hmatch.1) (Double.not_lt_of_isNaN (.inr hnan))
  · obtain ⟨i, row, hrow, hchoice⟩ := mem_assign_iff.mp hm
    have hindex := choice_rowIndex hchoice
    cases hfree : unclaimed (assign positions rows threshold) i (candidates positions) with
    | nil => exact absurd hindex ((hfloor i row hrow).unmatched hfree m hm)
    | cons first rest =>
      have hfirst := congrArg List.head? hfree
      exact (hfloor i row hrow).aboveFloor first hfirst (hnumber i row first hrow hfirst) m hm hindex

/-- A position and a row that have nothing in common, the position without limit. -/
def endlessTrench : List (Position Float) :=
  [{ id := "trench", itemNo := some "1", workName := some "trench", unitCode := some "m",
     volume := some (1.0 / 0.0), number := 1.0 }]

def oneDoor : List (Row Float) :=
  [{ itemNo := some "2", workName := some "door", unitCode := some "pcs", volume := some 1.0 }]

/-- The door becomes the trench although nothing but NaN speaks for it. -/
theorem endlessTrench_below_floor :
    (assign endlessTrench oneDoor 80.0).map (fun m => (m.positionId, m.rowIndex, m.kind)) =
        [("trench", 0, .lowConfidence)] ∧
      ¬ ∀ m ∈ assign endlessTrench oneDoor 80.0, 50.0 < m.score.total := by
  decide +kernel

end Matching
end TenderPricing
