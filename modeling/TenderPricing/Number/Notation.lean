import TenderPricing.Number.Shortest
/-!
How numbers are written.

Amounts in answers and messages are written with the fewest digits that identify them:
positionally from 0.0001 up to below 10^16 and otherwise with a signed exponent of at least two
digits.  Figures in labels and in the journal have a fixed number of places.
-/
namespace TenderPricing.Number

/-- The digits as they stand before a point is set. -/
def digitText (n : Nat) : List Char := (toString n).toList

def zeros (n : Nat) : List Char := List.replicate n '0'

/-- The exponent with its sign and at least two digits. -/
def exponentText (e : Int) : List Char :=
  let digits := digitText e.natAbs
  (if e < 0 then '-' else '+') :: zeros (2 - digits.length) ++ digits

namespace Decimal

/-- Writes a decimal whose point stands `point` digits after the first digit's place. -/
def positional (digits : List Char) (point : Int) : List Char :=
  if point ≤ 0 then '0' :: '.' :: zeros (-point).toNat ++ digits
  else if point.toNat < digits.length then
    digits.take point.toNat ++ '.' :: digits.drop point.toNat
  else digits ++ zeros (point.toNat - digits.length) ++ ['.', '0']

def scientific (digits : List Char) (point : Int) : List Char :=
  let mantissa := match digits with
    | first :: second :: rest => first :: '.' :: second :: rest
    | short => short
  mantissa ++ 'e' :: exponentText (point - 1)

def render (d : Decimal) : List Char :=
  let digits := digitText d.digits
  let point := (digits.length : Int) + d.exponent
  if -4 < point ∧ point ≤ 16 then positional digits point else scientific digits point

end Decimal

/-- The text of a double. -/
def floatText (x : Float) : String :=
  if x.isNaN then "nan"
  else
    let value := Binary64.ofFloat x
    let magnitude :=
      if x.isInf then ['i', 'n', 'f']
      else if value.significand = 0 then ['0', '.', '0']
      else value.shortest.render
    String.ofList (if value.negative then '-' :: magnitude else magnitude)

/-- Writes `units / 10 ^ places` with exactly that many places. -/
def fixedPlaces (units places : Nat) : List Char :=
  let digits := digitText units
  let padded := zeros (places + 1 - digits.length) ++ digits
  let whole := padded.take (padded.length - places)
  if places = 0 then whole else whole ++ '.' :: padded.drop (padded.length - places)

/-- The text of a double with a fixed number of places.  The exact value is rounded, a half going
to the even neighbour, and the sign stays even where only zeros are left. -/
def fixedText (places : Nat) (x : Float) : String :=
  if x.isNaN then "nan"
  else
    let value := Binary64.ofFloat x
    let magnitude :=
      if x.isInf then ['i', 'n', 'f'] else fixedPlaces (value.scaled places) places
    String.ofList (if value.negative then '-' :: magnitude else magnitude)

example : floatText 100.0 = "100.0" ∧ floatText 1e16 = "1e+16" ∧ floatText (-0.00001) = "-1e-05" := by
  decide +kernel
example : fixedText 1 0.25 = "0.2" ∧ fixedText 0 (-0.4) = "-0" ∧ fixedText 2 1234.5 = "1234.50" := by
  decide +kernel

end TenderPricing.Number
