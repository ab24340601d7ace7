import TenderPricing.Number.Binary64
/-!
The number operations that prices, scores and position numbers are computed with.

The rules of the library are written once, over any `Arithmetic`.  Doubles are what the service
computes with; rationals give the same rules their exact meaning, free of rounding except where
a rule itself rounds (to cents, to tenths).
-/
namespace TenderPricing

/-- A number that has no whole part. -/
inductive NoWholePart where
  | notANumber
  | infinite
  deriving DecidableEq, Repr

namespace NoWholePart

def message : NoWholePart → String
  | notANumber => "cannot convert float NaN to integer"
  | infinite => "cannot convert float infinity to integer"

end NoWholePart

/-- The operations of the pricing rules.  `x / 0` is never taken: the rules test the divisor. -/
class Arithmetic (α : Type) extends
    Add α, Sub α, Mul α, Div α, OfScientific α, LT α, LE α, BEq α where
  decLt : DecidableLT α
  decLe : DecidableLE α
  abs : α → α
  /-- False for what must not reach a financial total. -/
  isFinite : α → Bool
  ofInt : Int → α
  /-- The value of a double. -/
  ofFloat : Float → α
  /-- The greatest whole number that is not above. -/
  floor : α → Except NoWholePart Int
  /-- The nearest whole number, a half going to the even one. -/
  round : α → Int
  /-- The nearest whole cent, a half going to the even one. -/
  roundToCents : α → α

namespace Arithmetic

attribute [reducible, instance] decLt decLe

/-- Exact arithmetic. -/
instance : Arithmetic Rat where
  decLt := inferInstance
  decLe := inferInstance
  abs x := if x < 0 then -x else x
  isFinite _ := true
  ofInt n := n
  ofFloat x := (Number.Binary64.ofFloat x).toRat
  floor x := .ok x.floor
  round x := Number.roundDivInt x.num x.den
  roundToCents x := mkRat (Number.roundDivInt (x * 100).num (x * 100).den) 100

theorem exact_zero : (0.0 : Rat) = 0 := by decide +kernel

/-- Floating-point arithmetic. -/
instance : Arithmetic Float where
  decLt := inferInstance
  decLe := inferInstance
  abs := Float.abs
  isFinite := Float.isFinite
  ofInt := Number.floatOfInt
  ofFloat x := x
  floor x :=
    if x.isNaN then .error .notANumber
    else if x.isInf then .error .infinite
    else .ok (Number.Binary64.ofFloat x).floor
  round x := (Number.Binary64.ofFloat x).round
  roundToCents := Number.roundFloatToCents

end Arithmetic

end TenderPricing
