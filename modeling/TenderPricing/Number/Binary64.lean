import TenderPricing.Number.Rounding
/-!
Doubles as exact numbers.

A finite double is a sign, a whole significand and a power of two.  Everything that has to be
exact about one (its floor, its nearest integer, its nearest cent, the decimal digits that name
it) is computed on these three in whole numbers; only the last step, finding the double nearest
to a decimal, goes back to floating point.
-/
namespace TenderPricing.Number

/-- The finite value `± significand * 2 ^ exponent`. -/
structure Binary64 where
  negative : Bool
  significand : Nat
  exponent : Int
  deriving DecidableEq, Repr

namespace Binary64

/-- The fields of a double's bit pattern.  The infinities and NaN have no value: test for them
first. -/
def ofBits (bits : UInt64) : Binary64 :=
  let biased := ((bits >>> 52) &&& 0x7FF).toNat
  let fraction := (bits &&& 0xFFFFFFFFFFFFF).toNat
  let negative := bits >>> 63 == 1
  if biased = 0 then ⟨negative, fraction, -1074⟩
  else ⟨negative, 0x10000000000000 + fraction, (biased : Int) - 1075⟩

def ofFloat (x : Float) : Binary64 := ofBits x.toBits

/-- The power of two that divides the value, one for whole values. -/
def denominator (x : Binary64) : Nat := Nat.pow 2 (-x.exponent).toNat

/-- The value times its denominator. -/
def numerator (x : Binary64) : Int :=
  let magnitude : Int := (x.significand * Nat.pow 2 x.exponent.toNat : Nat)
  if x.negative then -magnitude else magnitude

def toRat (x : Binary64) : Rat := mkRat x.numerator x.denominator

/-- The greatest integer that is not above the value. -/
def floor (x : Binary64) : Int := x.numerator / x.denominator

/-- The nearest integer, a half going to the even neighbour. -/
def round (x : Binary64) : Int := roundDivInt x.numerator x.denominator

def isWhole (x : Binary64) : Bool := x.numerator % x.denominator = 0

/-- The value in units of `10 ^ -places`, rounded to a whole number without its sign. -/
def scaled (x : Binary64) (places : Nat) : Nat :=
  roundDiv (x.numerator.natAbs * Nat.pow 10 places) x.denominator

end Binary64

/-- The double nearest to `± units / 10 ^ places`. -/
def nearestFloat (negative : Bool) (units places : Nat) : Float :=
  let magnitude := Float.ofScientific units true places
  if negative then -magnitude else magnitude

/-- The double nearest to a whole number; beyond the range of doubles, an infinity. -/
def floatOfInt (n : Int) : Float :=
  let magnitude := Float.ofScientific n.natAbs false 0
  if n < 0 then -magnitude else magnitude

/-- The nearest whole cent, decided on the exact value and a half going to the even cent.  The
sign stays, so an amount just below zero becomes `-0.0`. -/
def roundFloatToCents (x : Float) : Float :=
  if x.isFinite then
    let value := Binary64.ofFloat x
    if value.isWhole then x else nearestFloat value.negative (value.scaled 2) 2
  else x

example : (roundFloatToCents 0.125).toBits = (0.12 : Float).toBits := by decide +kernel
example : (roundFloatToCents (-0.001)).toBits = (-0.0 : Float).toBits := by decide +kernel
example : (Binary64.ofFloat (-2.5)).floor = -3 ∧ (Binary64.ofFloat (-2.5)).round = -2 := by
  decide +kernel

end TenderPricing.Number
