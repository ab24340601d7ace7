/-!
Rounding a quotient to the nearest integer, a half going to the even neighbour.

Prices are rounded to cents, supplementary numbers to tenths and match scores to a digit for
display; each of these is `roundDiv` of an exact quotient.  `two_mul_roundDiv_near` says that the
result is within half a unit, `roundDiv_even_of_tie` which way a half goes.
-/
namespace TenderPricing.Number

/-- The integer nearest to `num / den`, of two equally near ones the even one. -/
def roundDiv (num den : Nat) : Nat :=
  if 2 * (num % den) < den then num / den
  else if den < 2 * (num % den) then num / den + 1
  else if num / den % 2 = 0 then num / den
  else num / den + 1

/-- The rounded quotient is within half a unit of the exact one. -/
theorem two_mul_roundDiv_near (num den : Nat) (h : 0 < den) :
    2 * (roundDiv num den * den) ≤ 2 * num + den ∧
      2 * num ≤ 2 * (roundDiv num den * den) + den := by
  have split : den * (num / den) + num % den = num := Nat.div_add_mod num den
  have small : num % den < den := Nat.mod_lt _ h
  have next : (num / den + 1) * den = den * (num / den) + den := by
    rw [Nat.add_mul, Nat.mul_comm]; simp
  have same : num / den * den = den * (num / den) := Nat.mul_comm ..
  unfold roundDiv
  split
  · omega
  · split
    · omega
    · split <;> omega

/-- A half goes to the even neighbour. -/
theorem roundDiv_even_of_tie (num den : Nat) (tie : 2 * (num % den) = den) :
    roundDiv num den % 2 = 0 := by
  unfold roundDiv
  split
  · omega
  · split
    · omega
    · split <;> omega

/-- An exact quotient is left alone. -/
theorem roundDiv_mul_self (n den : Nat) (h : 0 < den) : roundDiv (n * den) den = n := by
  simp [roundDiv, h]

/-- `roundDiv` on signed numerators, symmetric about zero. -/
def roundDivInt (num : Int) (den : Nat) : Int :=
  if num < 0 then -(roundDiv num.natAbs den : Int) else roundDiv num.natAbs den

end TenderPricing.Number
