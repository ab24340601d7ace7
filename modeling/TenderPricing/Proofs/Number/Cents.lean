import Mathlib.Tactic.FieldSimp
import TenderPricing.Proofs.Number.Nearest
/-!
Amounts rounded to cents, exactly.

A rounded amount is within half a cent of the amount, and it is zero exactly for amounts of at most
half a cent, since a half goes to the even cent.
-/
namespace TenderPricing

namespace Number

theorem roundDiv_eq_zero_iff {num den : Nat} (h : 0 < den) :
    roundDiv num den = 0 ↔ 2 * num ≤ den := by
  constructor
  · intro hzero
    have near := (two_mul_roundDiv_near num den h).2
    rw [hzero] at near
    omega
  · intro hsmall
    have hlt : num < den := by omega
    unfold roundDiv
    rw [Nat.div_eq_of_lt hlt, Nat.mod_eq_of_lt hlt]
    by_cases htie : 2 * num < den
    · rw [if_pos htie]
    · rw [if_neg htie, if_neg (by omega)]
      rfl

theorem roundDivInt_eq_zero_iff (num : Int) {den : Nat} (h : 0 < den) :
    roundDivInt num den = 0 ↔ 2 * num.natAbs ≤ den := by
  rw [← roundDiv_eq_zero_iff h, roundDivInt]
  by_cases hneg : num < 0
  · rw [if_pos hneg]
    omega
  · rw [if_neg hneg]
    omega

end Number

namespace Arithmetic

theorem abs_eq (x : Rat) : Arithmetic.abs x = |x| := by
  show (if x < 0 then -x else x) = |x|
  by_cases hneg : x < 0
  · rw [if_pos hneg, abs_of_neg hneg]
  · rw [if_neg hneg, abs_of_nonneg (not_lt.mp hneg)]

theorem roundToCents_eq (x : Rat) :
    Arithmetic.roundToCents x = (Number.roundDivInt (x * 100).num (x * 100).den : Rat) / 100 := by
  show mkRat (Number.roundDivInt (x * 100).num (x * 100).den) 100 = _
  rw [Rat.mkRat_eq_div]
  norm_num

/-- Rounding to cents moves an amount by half a cent at most. -/
theorem abs_sub_roundToCents_le (x : Rat) : |x - Arithmetic.roundToCents x| ≤ 1 / 200 := by
  have near : |x * 100 - (Number.roundDivInt (x * 100).num (x * 100).den : Rat)| ≤ 1 / 2 :=
    abs_sub_round_le (x * 100)
  rw [abs_le] at near
  rw [roundToCents_eq, abs_le]
  constructor <;> linarith [near.1, near.2]

/-- What rounds to nothing is half a cent at most. -/
theorem roundToCents_eq_zero_iff (x : Rat) : Arithmetic.roundToCents x = 0 ↔ |x| ≤ 1 / 200 := by
  have hden : 0 < ((x * 100).den : Rat) := by exact_mod_cast (x * 100).den_pos
  rw [roundToCents_eq, div_eq_zero_iff, or_iff_left (by norm_num), Int.cast_eq_zero,
    Number.roundDivInt_eq_zero_iff _ (x * 100).den_pos]
  have habs : ((x * 100).num.natAbs : Rat) = |x| * 100 * (x * 100).den := by
    rw [Nat.cast_natAbs, Int.cast_abs, ← Rat.mul_den_eq_num, abs_mul, abs_mul, abs_of_pos hden,
      abs_of_pos (by norm_num : (0 : Rat) < 100)]
  constructor
  · intro hle
    have hle' : 2 * ((x * 100).num.natAbs : Rat) ≤ (x * 100).den := by exact_mod_cast hle
    rw [habs] at hle'
    have h : 2 * (|x| * 100) ≤ 1 := by
      refine le_of_mul_le_mul_right ?_ hden
      linarith
    linarith
  · intro hle
    have h : 2 * (|x| * 100) * (x * 100).den ≤ 1 * (x * 100).den :=
      mul_le_mul_of_nonneg_right (by linarith) hden.le
    have hle' : 2 * ((x * 100).num.natAbs : Rat) ≤ (x * 100).den := by
      rw [habs]
      linarith
    exact_mod_cast hle'

end Arithmetic

end TenderPricing
