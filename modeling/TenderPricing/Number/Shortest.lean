import TenderPricing.Number.Binary64
/-!
The fewest decimal digits that identify a double.

The reals that round to a double form an interval around it.  On the grids with 1, 2, ... 17 digits
the two neighbours of the double are tested against that interval; the first grid with a hit wins
and the nearer neighbour is taken, of two equally near ones the even one.
-/
namespace TenderPricing.Number

/-- `digits * 10 ^ exponent`. -/
structure Decimal where
  digits : Nat
  exponent : Int
  deriving DecidableEq, Repr

namespace Decimal

def numerator (d : Decimal) : Nat := d.digits * Nat.pow 10 d.exponent.toNat

def denominator (d : Decimal) : Nat := Nat.pow 10 (-d.exponent).toNat

/-- Moves trailing zeros of the digits into the exponent; `fuel` bounds how many. -/
def stripZeros : Nat → Decimal → Decimal
  | 0, d => d
  | fuel + 1, d =>
    if d.digits ≠ 0 ∧ d.digits % 10 = 0 then stripZeros fuel ⟨d.digits / 10, d.exponent + 1⟩
    else d

end Decimal

/-- The reals that round to one double, as fractions with a common denominator. -/
structure RoundingInterval where
  lower : Nat
  upper : Nat
  denominator : Nat
  /-- Whether the ends belong to it: they do when the significand is even. -/
  closed : Bool

namespace RoundingInterval

def contains (i : RoundingInterval) (d : Decimal) : Bool :=
  let value := d.numerator * i.denominator
  let lower := i.lower * d.denominator
  let upper := i.upper * d.denominator
  (lower < value && value < upper) || (i.closed && (lower = value || value = upper))

end RoundingInterval

namespace Binary64

/-- Half a step to each side.  The step below a power of two is half as wide as the one above,
except below the least normal value. -/
def roundingInterval (x : Binary64) : RoundingInterval :=
  let narrow := x.significand = 0x10000000000000 ∧ x.exponent > -1074
  let unit := Nat.pow 2 (x.exponent - 2).toNat
  { lower := (if narrow then 4 * x.significand - 1 else 4 * x.significand - 2) * unit
    upper := (4 * x.significand + 2) * unit
    denominator := Nat.pow 2 (2 - x.exponent).toNat
    closed := x.significand % 2 = 0 }

/-- The least `k` with the magnitude below `10 ^ k`, found from an estimate by binary logarithms
that is at most two too small. -/
def decimalScale (x : Binary64) : Int :=
  let num := x.numerator.natAbs
  let bits : Int := (Nat.log2 num : Int) - Nat.log2 x.denominator
  let estimate := bits * 30103 / 100000
  let below (k : Int) : Bool := num * Nat.pow 10 (-k).toNat < Nat.pow 10 k.toNat * x.denominator
  if below estimate then estimate
  else if below (estimate + 1) then estimate + 1
  else estimate + 2

/-- The neighbour of the magnitude on the grid of multiples of `10 ^ exponent` that identifies
the double, if one does. -/
def onGrid? (x : Binary64) (exponent : Int) : Option Decimal :=
  let num := x.numerator.natAbs * Nat.pow 10 (-exponent).toNat
  let den := x.denominator * Nat.pow 10 exponent.toNat
  let low : Decimal := ⟨num / den, exponent⟩
  let high : Decimal := ⟨num / den + 1, exponent⟩
  let interval := x.roundingInterval
  match interval.contains low, interval.contains high with
  | true, true => some ⟨roundDiv num den, exponent⟩
  | true, false => some low
  | false, true => some high
  | false, false => none

/-- The fewest digits that identify a positive double.  Seventeen always do. -/
def shortest (x : Binary64) : Decimal :=
  let scale := x.decimalScale
  let found := (List.range 17).findSome? fun (n : Nat) => x.onGrid? (scale - 1 - (n : Int))
  match found with
  | some d => d.stripZeros 20
  | none => ⟨x.scaled (-x.exponent).toNat, -((-x.exponent).toNat : Int)⟩

end Binary64

end TenderPricing.Number
