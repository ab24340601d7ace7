import Mathlib.Data.List.Iterate
import TenderPricing.Proofs.Transfer.Numbering
/-!
The numbers after a number, exactly.

Which number comes next depends on the greatest number so far alone: `following` says which one it
is.  It takes the next tenth as long as rounding leaves one below the next whole number, which is up
to 0.85, and half of the gap from there on.  So numbers in a row are the iterates of `following`,
and however many they are, they never leave the unit they begin in.
-/
namespace TenderPricing
namespace Transfer

variable {parent last x : Rat} {existing : List Rat}

/-! ## The greatest number -/

theorem max?_cons (first : Rat) (others : List Rat) :
    (first :: others).max? = some (greatest first others) :=
  List.max?_eq_some_iff.mpr ⟨greatest_mem, fun _ => le_greatest⟩

theorem max?_append (h : existing.max? = some last) (hx : last < x) :
    (existing ++ [x]).max? = some x := by
  rw [List.max?_eq_some_iff] at h ⊢
  refine ⟨by simp, fun y hy => ?_⟩
  rcases List.mem_append.mp hy with hy | hy
  · exact (h.2 y hy).trans hx.le
  · exact (List.mem_singleton.mp hy).le

/-! ## The number that follows -/

/-- The tenth nearest to a tenth above `last` or, where that is no longer below the next whole
number, the number halfway to it. -/
def following (last : Rat) : Rat :=
  if Int.fract last < 17 / 20 then
    ⌊last⌋ + (Arithmetic.round ((Int.fract last + 1 / 10) * 10) : Rat) / 10
  else (last + ⌊last⌋ + 1) / 2

/-- From 0.85 on, where the tie goes to the even ten, a tenth above is rounded to the next whole
number or beyond. -/
theorem nextTenth_reaches_iff (last : Rat) :
    ⌊last⌋ + 1 ≤ ⌊nextTenth last ⌊last⌋⌋ ↔ 17 / 20 ≤ Int.fract last := by
  have hnonneg : 0 ≤ (Int.fract last + 1 / 10) * 10 := by
    have := Int.fract_nonneg last
    linarith
  have hten := Arithmetic.le_round_iff_of_even (n := 10) hnonneg rfl
  rw [Int.le_floor, nextTenth_exact, Int.self_sub_floor]
  calc ((⌊last⌋ + 1 : Int) : Rat) ≤
        ⌊last⌋ + (Arithmetic.round ((Int.fract last + 1 / 10) * 10) : Rat) / 10
      ↔ (10 : Rat) ≤ Arithmetic.round ((Int.fract last + 1 / 10) * 10) := by
        push_cast
        rw [add_le_add_iff_left, le_div_iff₀ (by norm_num), one_mul]
    _ ↔ (10 : Rat) - 1 / 2 ≤ (Int.fract last + 1 / 10) * 10 := by
        exact_mod_cast hten
    _ ↔ 17 / 20 ≤ Int.fract last := by
        constructor
        · intro h
          linarith
        · intro h
          linarith

theorem nextNumber_eq_following (parent : Rat) (h : existing.max? = some last) :
    nextNumber parent existing = .ok (following last) := by
  cases existing with
  | nil => cases h
  | cons first others =>
    obtain rfl : greatest first others = last := Option.some.inj ((max?_cons ..).symm.trans h)
    rw [nextNumber_cons, following]
    generalize greatest first others = last
    by_cases hreached : Int.fract last < 17 / 20
    · rw [if_pos hreached, if_neg (mt (nextTenth_reaches_iff last).mp hreached.not_ge),
        nextTenth_exact, Int.self_sub_floor]
    · rw [if_neg hreached, if_pos ((nextTenth_reaches_iff last).mpr (not_lt.mp hreached)),
        halfway_eq]

theorem following_between (last : Rat) : last < following last ∧ following last < ⌊last⌋ + 1 := by
  obtain ⟨number, hnumber, habove, hbelow⟩ := exists_nextNumber 0 last []
  rw [nextNumber_eq_following 0 (max?_cons last [])] at hnumber
  obtain rfl : following last = number := Except.ok.inj hnumber
  exact ⟨habove, hbelow⟩

theorem floor_following (last : Rat) : ⌊following last⌋ = ⌊last⌋ := by
  obtain ⟨habove, hbelow⟩ := following_between last
  exact Int.floor_eq_iff.mpr ⟨(Int.floor_le last).trans habove.le, hbelow⟩

/-! ## Numbers in a row -/

theorem floor_iterate_following (last : Rat) (i : Nat) : ⌊following^[i] last⌋ = ⌊last⌋ := by
  induction i with
  | zero => rfl
  | succ i ih => rw [Function.iterate_succ_apply', floor_following, ih]

theorem nextNumbers_eq_iterate (parent : Rat) {count : Nat} : ∀ {existing : List Rat} {last : Rat},
    existing.max? = some last →
      nextNumbers parent count existing = .ok (List.iterate following (following last) count) := by
  induction count with
  | zero => exact fun _ => rfl
  | succ count ih =>
    intro existing last h
    -- the number just chosen is the greatest one from now on
    have hgreatest := max?_append h (following_between last).1
    exact nextNumbers_succ_eq_ok_iff.mpr
      ⟨following last, _, nextNumber_eq_following parent h, ih hgreatest, rfl⟩

/-- Numbers that increase, are above all that exist and stay in the unit after a whole number. -/
structure StayWithin (whole : Int) (existing numbers : List Rat) : Prop where
  increasing : numbers.Pairwise (· < ·)
  unused : ∀ x ∈ existing, ∀ n ∈ numbers, x < n
  between : ∀ n ∈ numbers, whole ≤ n ∧ n < whole + 1

theorem stayWithin_iterate {whole : Int} (h : existing.max? = some last) (hwhole : ⌊last⌋ = whole)
    (count : Nat) : StayWithin whole existing (List.iterate following (following last) count) := by
  obtain ⟨hincreasing, hunused⟩ := nextNumbers_increasing (nextNumbers_eq_iterate 0 h)
  refine ⟨hincreasing, hunused, fun n hn => ?_⟩
  obtain ⟨i, -, rfl⟩ := List.mem_iterate.mp hn
  rw [← Int.floor_eq_iff, floor_iterate_following, floor_following, hwhole]

/-- The next number is above all numbers so far and below the whole number after the greatest of
them.  So however many numbers follow in a row, they stay in the unit of the greatest one and are
taken once each. -/
theorem nextNumbers_never_leave_unit (h : existing ≠ []) :
    ∃ last, existing.max? = some last ∧
      (∀ parent, nextNumber parent existing = .ok (following last)) ∧
      last < following last ∧ following last < ⌊last⌋ + 1 ∧
      ∀ whole : Int, whole ≤ last → last < whole + 1 → ∀ count,
        (∀ parent, nextNumbers parent count existing =
          .ok (List.iterate following (following last) count)) ∧
        StayWithin whole existing (List.iterate following (following last) count) := by
  obtain ⟨first, others, rfl⟩ := List.exists_cons_of_ne_nil h
  have hlast := max?_cons first others
  generalize greatest first others = last at hlast
  obtain ⟨habove, hbelow⟩ := following_between last
  refine ⟨last, hlast, fun parent => nextNumber_eq_following parent hlast, habove, hbelow, ?_⟩
  intro whole hlow hhigh count
  exact ⟨fun parent => nextNumbers_eq_iterate parent hlast,
    stayWithin_iterate hlast (Int.floor_eq_iff.mpr ⟨hlow, hhigh⟩) count⟩

/-- A tenth above 5.85 is the tie 5.95, which is rounded to 6, so half of the gap is taken. -/
theorem nextNumbers_never_leave_unit_tie :
    [103 / 20, 117 / 20] ≠ ([] : List Rat) ∧
      (∀ parent : Rat, nextNumber parent [103 / 20, 117 / 20] = .ok (237 / 40)) ∧
      (117 / 20 : Rat) < 237 / 40 ∧ (237 / 40 : Rat) < 5 + 1 ∧
      (∀ parent : Rat, nextNumbers parent 3 [103 / 20, 117 / 20] =
        .ok [237 / 40, 477 / 80, 957 / 160]) ∧
      StayWithin 5 [103 / 20, 117 / 20] [237 / 40, 477 / 80, 957 / 160] := by
  have hne : [103 / 20, 117 / 20] ≠ ([] : List Rat) := List.cons_ne_nil _ _
  obtain ⟨last, hlast, hnext, habove, hbelow, hrow⟩ := nextNumbers_never_leave_unit hne
  have hmax : ([103 / 20, 117 / 20] : List Rat).max? = some (117 / 20) := by decide +kernel
  obtain rfl : 117 / 20 = last := Option.some.inj (hmax.symm.trans hlast)
  have hfollowing : following (117 / 20) = 237 / 40 := by decide +kernel
  have hiterate : List.iterate following (237 / 40) 3 = [237 / 40, 477 / 80, 957 / 160] := by
    decide +kernel
  have hfloor : ⌊(117 / 20 : Rat)⌋ = 5 := by decide +kernel
  rw [hfollowing] at hnext habove hbelow hrow
  rw [hfloor] at hbelow
  obtain ⟨hnumbers, hstay⟩ := hrow 5 (by norm_num) (by norm_num) 3
  rw [hiterate] at hnumbers hstay
  exact ⟨hne, hnext, habove, by exact_mod_cast hbelow, hnumbers, hstay⟩

end Transfer
end TenderPricing
