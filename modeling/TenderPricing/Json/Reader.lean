import TenderPricing.Json.Value
import TenderPricing.Number.Numeral
/-!
Reading of JSON text.

A number without point and exponent is whole and of any size; every other number is the nearest
double.  Texts are Unicode, so a text with half of a surrogate pair is not read.  Every reader
returns what is left of the text.  Nesting is bounded by the length of the text, so `read?` passes
that length on as the depth to which readers may descend.
-/
namespace TenderPricing
namespace Json

def isSpace (c : Char) : Bool := c = ' ' || c = '\t' || c = '\n' || c = '\r'

def skipSpace (text : List Char) : List Char := text.dropWhile isSpace

def hexValue? (c : Char) : Option Nat :=
  if c.isDigit then some (c.toNat - 48)
  else if 'a' ≤ c ∧ c ≤ 'f' then some (c.toNat - 87)
  else if 'A' ≤ c ∧ c ≤ 'F' then some (c.toNat - 55)
  else none

/-- The code unit of four hexadecimal digits. -/
def readUnit? : List Char → Option (Nat × List Char)
  | a :: b :: c :: d :: rest => do
    let a ← hexValue? a
    let b ← hexValue? b
    let c ← hexValue? c
    let d ← hexValue? d
    return (((a * 16 + b) * 16 + c) * 16 + d, rest)
  | _ => none

/-- The character of a code unit that stands alone.  Half of a pair is no character. -/
def charOfUnit? (unit : Nat) : Option Char :=
  if 0xD800 ≤ unit ∧ unit < 0xE000 then none else some (Char.ofNat unit)

/-- The character of an escaped code unit, which may be the first of a pair. -/
def readEscapedUnit? (text : List Char) : Option (Char × List Char) := do
  let (high, rest) ← readUnit? text
  match rest with
  | '\\' :: 'u' :: tail =>
    let (low, after) ← readUnit? tail
    if 0xD800 ≤ high ∧ high < 0xDC00 ∧ 0xDC00 ≤ low ∧ low < 0xE000 then
      return (Char.ofNat (0x10000 + (high - 0xD800) * 0x400 + (low - 0xDC00)), after)
    else return (← charOfUnit? high, rest)
  | _ => return (← charOfUnit? high, rest)

/-- The character that a backslash and a letter stand for. -/
def escapeOf? : Char → Option Char
  | 'n' => some '\n'
  | 't' => some '\t'
  | 'r' => some '\r'
  | 'b' => some '\x08'
  | 'f' => some '\x0c'
  | '"' => some '"'
  | '\\' => some '\\'
  | '/' => some '/'
  | _ => none

/-- The characters of a string after its opening quote. -/
def readChars? : Nat → List Char → List Char → Option (String × List Char)
  | 0, _, _ => none
  | _, _, [] => none
  | _, done, '"' :: rest => some (String.ofList done.reverse, rest)
  | fuel + 1, done, '\\' :: 'u' :: rest => do
    let (c, after) ← readEscapedUnit? rest
    readChars? fuel (c :: done) after
  | fuel + 1, done, '\\' :: c :: rest => do
    let meant ← escapeOf? c
    readChars? fuel (meant :: done) rest
  | fuel + 1, done, c :: rest => readChars? fuel (c :: done) rest

def isNumberChar (c : Char) : Bool :=
  c.isDigit || c = '-' || c = '+' || c = '.' || c = 'e' || c = 'E'

/-- A number that starts the text. -/
def readNumber? (text : List Char) : Option (Json × List Char) :=
  let numeral := text.takeWhile isNumberChar
  let rest := text.dropWhile isNumberChar
  let (negative, digits) := Number.takeSign numeral
  if digits.isEmpty then none
  else if digits.all Char.isDigit then
    let size : Int := Number.digitsValue digits
    some (int (if negative then -size else size), rest)
  else (Number.readFloat? (String.ofList numeral)).map fun x => (float x, rest)

mutual

/-- A value that starts the text, after blanks. -/
def readValue? : Nat → List Char → Option (Json × List Char)
  | 0, _ => none
  | depth + 1, text => match skipSpace text with
    | 'n' :: 'u' :: 'l' :: 'l' :: rest => some (null, rest)
    | 't' :: 'r' :: 'u' :: 'e' :: rest => some (bool true, rest)
    | 'f' :: 'a' :: 'l' :: 's' :: 'e' :: rest => some (bool false, rest)
    | '"' :: rest => (readChars? (rest.length + 1) [] rest).map fun (s, after) => (string s, after)
    | '[' :: rest => match skipSpace rest with
      | ']' :: after => some (array [], after)
      | inner => (readElements? depth inner).map fun (elements, after) => (array elements, after)
    | '\x7b' :: rest => match skipSpace rest with
      | '\x7d' :: after => some (object [], after)
      | inner => (readMembers? depth inner).map fun (members, after) => (object members, after)
    | other => readNumber? other

/-- The elements of an array after its opening bracket. -/
def readElements? : Nat → List Char → Option (List Json × List Char)
  | 0, _ => none
  | depth + 1, text => do
    let (first, rest) ← readValue? depth text
    match skipSpace rest with
    | ',' :: tail =>
      let (others, after) ← readElements? depth tail
      return (first :: others, after)
    | ']' :: after => return ([first], after)
    | _ => none

/-- The members of an object after its opening brace. -/
def readMembers? : Nat → List Char → Option (List (String × Json) × List Char)
  | 0, _ => none
  | depth + 1, text => match skipSpace text with
    | '"' :: named => do
      let (key, rest) ← readChars? (named.length + 1) [] named
      match skipSpace rest with
      | ':' :: tail =>
        let (value, rest) ← readValue? depth tail
        match skipSpace rest with
        | ',' :: tail =>
          let (others, after) ← readMembers? depth tail
          return ((key, value) :: others, after)
        | '\x7d' :: after => return ([(key, value)], after)
        | _ => none
      | _ => none
    | _ => none

end

/-- Reads a text that is one value. -/
def read? (text : String) : Option Json :=
  let chars := text.toList
  match readValue? (chars.length + 1) chars with
  | some (value, rest) => if (skipSpace rest).isEmpty then some value else none
  | none => none

end Json
end TenderPricing
