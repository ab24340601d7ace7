import TenderPricing.Number.Notation
/-!
Doubles written with a chosen number of significant digits.

`scientificText` always writes an exponent.  `generalText` writes the same digits without one where
that is shorter, and drops the zeros at the end.
-/
namespace TenderPricing.Number

namespace Binary64

/-- The magnitude rounded to `count` digits, a half going to the even neighbour, and the power of
ten of the first digit. -/
def significant (x : Binary64) (count : Nat) : Nat × Int :=
  if x.significand = 0 then (0, 0)
  else
    let exponent := x.decimalScale - 1
    let shift := (count : Int) - 1 - exponent
    let digits := roundDiv (x.numerator.natAbs * Nat.pow 10 shift.toNat)
      (x.denominator * Nat.pow 10 (-shift).toNat)
    if digits = Nat.pow 10 count then (digits / 10, exponent + 1) else (digits, exponent)

end Binary64

/-- Digits with a point after the first.  `keepPoint` writes the point even where nothing
follows. -/
def mantissaText (keepPoint : Bool) : List Char → List Char
  | [] => []
  | [first] => if keepPoint then [first, '.'] else [first]
  | first :: rest => first :: '.' :: rest

/-- Drops zeros at the end. -/
def dropLastZeros (digits : List Char) : List Char := (digits.reverse.dropWhile (· = '0')).reverse

/-- The digits of a rounded magnitude, filled up to `count`. -/
def paddedDigits (digits count : Nat) : List Char :=
  let text := digitText digits
  text ++ zeros (count - text.length)

/-- A magnitude with one digit before the point, `places` after it, and an exponent. -/
def scientificText (x : Binary64) (places : Nat) (keepPoint : Bool) : List Char :=
  let (digits, exponent) := x.significant (places + 1)
  mantissaText keepPoint (paddedDigits digits (places + 1)) ++ 'e' :: exponentText exponent

/-- A magnitude with a fixed number of places. -/
def fixedMagnitude (x : Binary64) (places : Nat) (keepPoint : Bool) : List Char :=
  fixedPlaces (x.scaled places) places ++ if keepPoint && places = 0 then ['.'] else []

/-- A magnitude with `count` significant digits, positionally where its first digit stands from
the fourth place after the point up to the last of these digits. -/
def generalText (x : Binary64) (count : Nat) (keepZeros : Bool) : List Char :=
  let count := max count 1
  let (digits, exponent) := x.significant count
  if -4 ≤ exponent ∧ exponent < count then
    let places := ((count : Int) - 1 - exponent).toNat
    let text := fixedPlaces (x.scaled places) places
    if keepZeros then (if places = 0 then text ++ ['.'] else text)
    else if places = 0 then text
    else
      let kept := dropLastZeros text
      if kept.getLast? = some '.' then kept.dropLast else kept
  else
    let text := paddedDigits digits count
    let shown := if keepZeros then text
      else match dropLastZeros text with
        | [] => ['0']
        | kept => kept
    mantissaText keepZeros shown ++ 'e' :: exponentText exponent

example : scientificText (.ofFloat 1234.5) 2 false = "1.23e+03".toList := by decide +kernel
example : generalText (.ofFloat 1234.5) 6 false = "1234.5".toList := by decide +kernel
example : generalText (.ofFloat 0.00001) 6 false = "1e-05".toList := by decide +kernel

end TenderPricing.Number
