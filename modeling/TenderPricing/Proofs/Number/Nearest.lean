import Mathlib.Algebra.Order.Ring.Abs
import Mathlib.Algebra.Order.Field.Rat
import Mathlib.Data.Rat.Cast.Order
import Mathlib.Tactic.Linarith
import Mathlib.Tactic.SplitIfs
import TenderPricing.Number.Arithmetic
/-!
The whole number nearest to a rational.

A rounded quotient is one of the two whole numbers around the exact one.  Rounding moves a rational
by half a unit at most, and an even number is reached from exactly half a unit away.
-/
namespace TenderPricing

namespace Number

theorem roundDiv_eq_or (num den : Nat) :
    roundDiv num den = num / den ∨ roundDiv num den = num / den + 1 := by
  unfold roundDiv
  split_ifs <;> simp

theorem roundDiv_one (num : Nat) : roundDiv num 1 = num := by
  simpa using roundDiv_mul_self num 1 Nat.one_pos

theorem le_roundDiv {num den n : Nat} (h : 0 < den) (hn : n * den ≤ num) :
    n ≤ roundDiv num den := by
  have hquotient : n ≤ num / den := (Nat.le_div_iff_mul_le h).mpr hn
  rcases roundDiv_eq_or num den with heq | heq <;> omega

theorem roundDiv_le {num den n : Nat} (h : 0 < den) (hn : num < n * den) :
    roundDiv num den ≤ n := by
  have hquotient : num / den < n := (Nat.div_lt_iff_lt_mul h).mpr hn
  rcases roundDiv_eq_or num den with heq | heq <;> omega

/-- An even number takes the halves on both sides of it. -/
theorem le_roundDiv_iff_of_even {num den n : Nat} (h : 0 < den) (heven : n % 2 = 0) :
    n ≤ roundDiv num den ↔ 2 * (n * den) ≤ 2 * num + den := by
  constructor
  · intro hle
    have hmul : n * den ≤ roundDiv num den * den := Nat.mul_le_mul_right den hle
    have near := (two_mul_roundDiv_near num den h).1
    omega
  · intro hnear
    by_cases hquotient : n * den ≤ num
    · exact le_roundDiv h hquotient
    · -- the quotient is the number before, and its remainder at least a half
      have hsplit : num / den * den + num % den = num := Nat.div_add_mod' num den
      have hless : num % den < den := Nat.mod_lt num h
      obtain rfl : n = num / den + 1 := by
        refine le_antisymm ?_ (Nat.div_lt_of_lt_mul (by rw [Nat.mul_comm]; omega))
        by_contra hmore
        have hmul : (num / den + 2) * den ≤ n * den := Nat.mul_le_mul_right den (by omega)
        rw [Nat.add_mul] at hmul
        omega
      rw [Nat.add_mul] at hnear
      unfold roundDiv
      split_ifs <;> omega

/-! ## Halves -/

theorem roundDiv_two_le (n : Nat) : roundDiv n 2 ≤ n := by
  unfold roundDiv
  split_ifs <;> omega

theorem roundDiv_two_lt {n : Nat} (h : 0 < n) : roundDiv n 2 < n := by
  unfold roundDiv
  split_ifs <;> omega

/-- Halves are rounded alike on both sides of an even number. -/
theorem roundDiv_two_sub {a n : Nat} (h : n ≤ 4 * a) :
    roundDiv (4 * a - n) 2 = 2 * a - roundDiv n 2 := by
  unfold roundDiv
  split_ifs <;> omega

/-! ## Signed numerators -/

theorem roundDivInt_near (num : Int) {den : Nat} (h : 0 < den) :
    2 * (roundDivInt num den * den) ≤ 2 * num + den ∧
      2 * num ≤ 2 * (roundDivInt num den * den) + den := by
  obtain ⟨above, below⟩ := two_mul_roundDiv_near num.natAbs den h
  have above' : 2 * ((roundDiv num.natAbs den : Int) * den) ≤ 2 * num.natAbs + den := by
    exact_mod_cast above
  have below' : 2 * (num.natAbs : Int) ≤ 2 * ((roundDiv num.natAbs den : Int) * den) + den := by
    exact_mod_cast below
  unfold roundDivInt
  by_cases hneg : num < 0
  · rw [if_pos hneg, Int.neg_mul]
    omega
  · rw [if_neg hneg]
    omega

end Number

namespace Arithmetic

theorem abs_sub_round_le (x : Rat) : |x - (Arithmetic.round x : Rat)| ≤ 1 / 2 := by
  show |x - (Number.roundDivInt x.num x.den : Rat)| ≤ 1 / 2
  have hden : 0 < (x.den : Rat) := by exact_mod_cast x.den_pos
  obtain ⟨above, below⟩ := Number.roundDivInt_near x.num x.den_pos
  have above' : 2 * ((Number.roundDivInt x.num x.den : Rat) * x.den) ≤ 2 * x.num + x.den := by
    exact_mod_cast above
  have below' : 2 * (x.num : Rat) ≤ 2 * ((Number.roundDivInt x.num x.den : Rat) * x.den) + x.den := by
    exact_mod_cast below
  rw [← Rat.mul_den_eq_num x] at above' below'
  rw [abs_le]
  constructor
  · have h : 2 * (Number.roundDivInt x.num x.den : Rat) ≤ 2 * x + 1 := by
      refine le_of_mul_le_mul_right ?_ hden
      linarith
    linarith
  · have h : 2 * x ≤ 2 * (Number.roundDivInt x.num x.den : Rat) + 1 := by
      refine le_of_mul_le_mul_right ?_ hden
      linarith
    linarith

theorem le_round_iff_of_even {x : Rat} {n : Nat} (hx : 0 ≤ x) (heven : n % 2 = 0) :
    (n : Int) ≤ Arithmetic.round x ↔ (n : Rat) - 1 / 2 ≤ x := by
  have hsign : 0 ≤ x.num := Rat.num_nonneg.mpr hx
  have hden : 0 < (x.den : Rat) := by exact_mod_cast x.den_pos
  have hnum : (x.num.natAbs : Rat) = x * x.den := by
    rw [Rat.mul_den_eq_num, Nat.cast_natAbs, abs_of_nonneg hsign]
  show (n : Int) ≤ Number.roundDivInt x.num x.den ↔ _
  rw [Number.roundDivInt, if_neg (not_lt.mpr hsign), Nat.cast_le,
    Number.le_roundDiv_iff_of_even x.den_pos heven, ← Nat.cast_le (α := Rat)]
  push_cast
  rw [hnum, ← mul_assoc, ← mul_assoc, ← add_one_mul, mul_le_mul_iff_left₀ hden]
  constructor
  · intro h
    linarith
  · intro h
    linarith

end Arithmetic

end TenderPricing
