import TenderPricing.Number.Binary64
import TenderPricing.Text.Blank
import TenderPricing.Text.DecimalDigit
/-!
Numbers read from text.

Digits of every script count as digits, blanks around the number are ignored, and one underscore
may stand between two digits.  `readFloat?` reads decimals, the infinities and NaN; `readInt?`
whole numbers of at most `maxDigits` digits.
-/
namespace TenderPricing.Number

open TenderPricing.Text

/-- Digits of other scripts as plain digits, blanks beyond ASCII as spaces. -/
def plainChar (c : Char) : Char :=
  if c.toNat < 128 then c
  else if isBlank c then ' '
  else match digitValue? c with
    | some d => Char.ofNat (48 + d)
    | none => c

/-- The blanks that may stand around a number once `plainChar` has been applied. -/
def isPadding (c : Char) : Bool := c = ' ' || (9 ≤ c.toNat && c.toNat ≤ 13)

def plainText (s : String) : List Char :=
  (((s.toList.map plainChar).dropWhile isPadding).reverse.dropWhile isPadding).reverse

/-- Removes the underscores, each of which must stand between two digits.  `afterDigit` tells
whether the character before was a digit. -/
def joinDigits? (afterDigit : Bool) : List Char → Option (List Char)
  | [] => some []
  | '_' :: c :: rest =>
    if afterDigit && c.isDigit then joinDigits? false (c :: rest) else none
  | c :: rest => if c = '_' then none else (joinDigits? c.isDigit rest).map (c :: ·)

/-- The value of plain digits. -/
def digitsValue (digits : List Char) : Nat :=
  digits.foldl (fun value c => value * 10 + (c.toNat - 48)) 0

/-- A sign, by default positive, and what follows it. -/
def takeSign : List Char → Bool × List Char
  | '-' :: rest => (true, rest)
  | '+' :: rest => (false, rest)
  | rest => (false, rest)

/-- The exponent after the digits: absent, or a mark, a sign and at least one digit. -/
def readExponent? : List Char → Option Int
  | [] => some 0
  | mark :: rest =>
    let (negative, digits) := takeSign rest
    if (mark = 'e' || mark = 'E') && !digits.isEmpty && digits.all Char.isDigit then
      let size : Int := digitsValue digits
      some (if negative then -size else size)
    else none

/-- The double nearest to `digits * 10 ^ exponent`.  Exponents far beyond the range of doubles
are settled without computing the power. -/
def floatOfDecimal (digits : Nat) (exponent : Int) : Float :=
  let leading : Int := (toString digits).length + exponent
  if digits = 0 then 0.0
  else if leading > 400 then 1.0 / 0.0
  else if leading < -400 then 0.0
  else Float.ofScientific digits (exponent < 0) exponent.natAbs

def readDecimal? (s : List Char) : Option Float :=
  let whole := s.takeWhile Char.isDigit
  let (fraction, rest) := match s.dropWhile Char.isDigit with
    | '.' :: tail => (tail.takeWhile Char.isDigit, tail.dropWhile Char.isDigit)
    | tail => ([], tail)
  if whole.isEmpty && fraction.isEmpty then none
  else (readExponent? rest).map fun exponent =>
    floatOfDecimal (digitsValue (whole ++ fraction)) (exponent - fraction.length)

def readMagnitude? (s : List Char) : Option Float :=
  let word := String.ofList (s.map Char.toLower)
  if word = "inf" || word = "infinity" then some (1.0 / 0.0)
  else if word = "nan" then some (0.0 / 0.0)
  else readDecimal? s

def readFloat? (s : String) : Option Float :=
  (joinDigits? false (plainText s)).bind fun joined =>
    let (negative, body) := takeSign joined
    (readMagnitude? body).map fun magnitude => if negative then -magnitude else magnitude

/-- Longer numerals are refused. -/
def maxDigits : Nat := 4300

def readInt? (s : String) : Option Int :=
  (joinDigits? false (plainText s)).bind fun joined =>
    let (negative, digits) := takeSign joined
    if digits.isEmpty || !digits.all Char.isDigit || digits.length > maxDigits then none
    else
      let size : Int := digitsValue digits
      some (if negative then -size else size)

example : readInt? " -1_000 " = some (-1000) ∧ readInt? "1__0" = none := by decide +kernel
example : (readFloat? ".5e1").map Float.toBits = some (5.0 : Float).toBits := by decide +kernel

end TenderPricing.Number
