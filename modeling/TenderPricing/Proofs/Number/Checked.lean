import TenderPricing.Proofs.Number.Cents
/-!
Exact arithmetic that notices a division by zero.

A quotient by zero is undefined, and so is all that is computed from it.  Nothing undefined compares
with anything, so a rule whose result has a value never divided by zero on its way there.
-/
namespace TenderPricing

inductive Checked where
  | value (x : ℚ)
  | undefined
  deriving DecidableEq, Repr

namespace Checked

def map (f : ℚ → ℚ) : Checked → Checked
  | value x => value (f x)
  | undefined => undefined

def map₂ (f : ℚ → ℚ → ℚ) : Checked → Checked → Checked
  | value x, value y => value (f x y)
  | _, _ => undefined

def quotient : Checked → Checked → Checked
  | value x, value y => if y = 0 then undefined else value (x / y)
  | _, _ => undefined

/-- A comparison, which does not hold of anything undefined. -/
def Compared (r : ℚ → ℚ → Prop) : Checked → Checked → Prop
  | value x, value y => r x y
  | _, _ => False

instance decidableCompared (r : ℚ → ℚ → Prop) [DecidableRel r] : DecidableRel (Compared r)
  | value x, value y => inferInstanceAs (Decidable (r x y))
  | value _, undefined => isFalse id
  | undefined, _ => isFalse id

instance : Arithmetic Checked where
  add := map₂ (· + ·)
  sub := map₂ (· - ·)
  mul := map₂ (· * ·)
  div := quotient
  ofScientific m s e := value (OfScientific.ofScientific m s e)
  lt := Compared (· < ·)
  le := Compared (· ≤ ·)
  beq a b := decide (Compared (· = ·) a b)
  decLt := decidableCompared (· < ·)
  decLe := decidableCompared (· ≤ ·)
  abs := map Arithmetic.abs
  isFinite
    | value _ => true
    | undefined => false
  ofInt n := value (Arithmetic.ofInt n)
  ofFloat x := value (Arithmetic.ofFloat x)
  floor
    | value x => Arithmetic.floor x
    | undefined => .error .notANumber
  round
    | value x => Arithmetic.round x
    | undefined => 0
  roundToCents := map Arithmetic.roundToCents

example : (1.0 / 0.0 - 1.0 : Checked) = undefined := by decide +kernel

variable (x y : ℚ)

theorem value_add : value x + value y = value (x + y) := rfl

theorem value_sub : value x - value y = value (x - y) := rfl

theorem value_mul : value x * value y = value (x * y) := rfl

theorem value_div {x y : ℚ} (h : y ≠ 0) : value x / value y = value (x / y) := if_neg h

theorem value_lt : value x < value y ↔ x < y := Iff.rfl

theorem value_beq : (value x == value y) = (x == y) := rfl

theorem literal_eq (m : Nat) (s : Bool) (e : Nat) :
    (OfScientific.ofScientific m s e : Checked) = value (OfScientific.ofScientific m s e) := rfl

theorem ofInt_eq (n : ℤ) : (Arithmetic.ofInt n : Checked) = value (Arithmetic.ofInt n) := rfl

theorem value_abs : Arithmetic.abs (value x) = value (Arithmetic.abs x) := rfl

end Checked

end TenderPricing
