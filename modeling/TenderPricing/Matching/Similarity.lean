import TenderPricing.Matching.EditDistance
import TenderPricing.Number.Arithmetic
/-!
How close two names or two quantities are, from zero to one.
-/
namespace TenderPricing
namespace Matching

/-- Makes one space of every run of blanks. -/
def collapseBlanks : List Char → List Char
  | [] => []
  | c :: rest =>
    if Text.isBlank c then
      match rest with
      | next :: _ => if Text.isBlank next then collapseBlanks rest else ' ' :: collapseBlanks rest
      | [] => [' ']
    else c :: collapseBlanks rest

/-- Plain letters and digits, the underscore, blanks and Cyrillic stay; the rest is punctuation. -/
def staysInName (c : Char) : Bool :=
  c.isLower || c.isDigit || c = '_' || Text.isBlank c || (0x400 ≤ c.toNat && c.toNat ≤ 0x4FF)

/-- A name without the differences that do not matter: small letters, trimmed, single spaces, and
then no punctuation. -/
def normalize (name : String) : String :=
  String.ofList ((collapseBlanks (comparable name)).filter staysInName)

variable {α : Type} [Arithmetic α]

/-- One minus the distance of two names relative to the longer one; nothing is like a missing or
empty name. -/
def nameSimilarity (a b : Option String) : α :=
  let a := a.getD ""
  let b := b.getD ""
  if a = "" ∨ b = "" then 0.0
  else
    let m := normalize a
    let n := normalize b
    let longest := max m.length n.length
    if longest = 0 then 1.0
    else 1.0 - Arithmetic.ofInt (textDistance m n) / Arithmetic.ofInt longest

/-- Quantities that differ by less than this, relative to their mean, count as the same. -/
def tightBand : α := 0.05

/-- Quantities that differ by more than this have nothing in common. -/
def looseBand : α := 0.5

/-- Closeness of two quantities that are not zero, linear between the two bands. -/
def relativeProximity (v w : α) : α :=
  let mean := (Arithmetic.abs v + Arithmetic.abs w) / 2.0
  let difference := Arithmetic.abs (v - w) / mean
  if difference < tightBand then 1.0
  else if looseBand < difference then 0.0
  else 1.0 - (difference - tightBand) / (looseBand - tightBand)

/-- Closeness of two quantities.  A quantity that is missing or zero fits only its like. -/
def volumeProximity : Option α → Option α → α
  | none, none => 1.0
  | some v, some w =>
    if v == 0.0 && w == 0.0 then 1.0
    else if v == 0.0 || w == 0.0 then 0.0
    else relativeProximity v w
  | _, _ => 0.0

example : normalize "  Кладка  стен, 2-й ЭТАЖ " = "кладка стен 2й этаж" := by decide +kernel

end Matching
end TenderPricing
