import TenderPricing.Json.Numeric
import TenderPricing.Number.Arithmetic
import TenderPricing.Number.Precision
/-!
Message templates.

A placeholder is a percent sign, flags, a width, a precision and a letter that says how the next
value is written.  Every value must be used and every placeholder must find one.
-/
namespace TenderPricing
namespace Journal

/-- Why a template cannot be filled in. -/
inductive TemplateFault where
  | tooFewValues
  | tooManyValues
  | incomplete
  | needsMapping
  | widthNotWhole
  /-- A width or a precision, written out, that no machine word holds. -/
  | countTooLarge (count : String)
  /-- The same, taken from the values; `word` names the machine word. -/
  | valueTooLarge (word : String)
  | unknownLetter (letter : Char) (index : Nat)
  | notReal (letter : Char) (kind : String)
  | notWhole (letter : Char) (kind : String)
  | notAFloat (kind : String)
  | tooLarge
  | noWholePart (fault : NoWholePart)
  | notACharacter
  | noSuchCharacter
  deriving Repr

namespace TemplateFault

/-- The digits of a code point in base sixteen. -/
def hexText (n : Nat) : String := String.ofList (Nat.toDigits 16 n)

def message : TemplateFault → String
  | tooFewValues => "not enough arguments for format string"
  | tooManyValues => "not all arguments converted during string formatting"
  | incomplete => "incomplete format"
  | needsMapping => "format requires a mapping"
  | widthNotWhole => "* wants int"
  | countTooLarge count => count ++ " too big"
  | valueTooLarge word => "Python int too large to convert to C " ++ word
  | unknownLetter letter index =>
    let shown := if 31 ≤ letter.toNat ∧ letter.toNat ≤ 126 then letter else '?'
    "unsupported format character '" ++ shown.toString ++ "' (0x" ++ hexText letter.toNat ++
      ") at index " ++ toString index
  | notReal letter kind =>
    "%" ++ letter.toString ++ " format: a real number is required, not " ++ kind
  | notWhole letter kind =>
    "%" ++ letter.toString ++ " format: an integer is required, not " ++ kind
  | notAFloat kind => "must be real number, not " ++ kind
  | tooLarge => NumberFault.tooLarge.message
  | noWholePart fault => fault.message
  | notACharacter => "%c requires int or char"
  | noSuchCharacter => "%c arg not in range(0x110000)"

end TemplateFault

/-- A truth value as a number. -/
def truthNumber (b : Bool) : Nat := if b then 1 else 0

/-- The whole number that a value is. -/
def wholeValue? : Json → Option Int
  | .int n => some n
  | .bool b => some (truthNumber b)
  | _ => none

structure Placeholder where
  left : Bool := false
  sign : Bool := false
  blank : Bool := false
  alternate : Bool := false
  zero : Bool := false
  width : Nat := 0
  precision : Option Nat := none
  letter : Char

namespace Placeholder

/-- Fills a text up to the width, on the left unless the left flag is set. -/
def pad (p : Placeholder) (body : List Char) : List Char :=
  let fill := List.replicate (p.width - body.length) ' '
  if p.left then body ++ fill else fill ++ body

/-- Writes a number: the sign, a mark such as `0x`, and the digits, with zeros between the mark and
the digits where the zero flag asks for them. -/
def number (p : Placeholder) (negative : Bool) (mark digits : List Char) : List Char :=
  let sign := if negative then ['-'] else if p.sign then ['+'] else if p.blank then [' '] else []
  let lead := sign ++ mark
  if p.zero && !p.left then
    lead ++ List.replicate (p.width - (lead.length + digits.length)) '0' ++ digits
  else p.pad (lead ++ digits)

/-- Cuts a text to the precision and fills it up to the width. -/
def text (p : Placeholder) (s : String) : List Char :=
  p.pad (match p.precision with
    | some n => s.toList.take n
    | none => s.toList)

/-- The whole number that `%d` and its like write. -/
def wholeOf (letter : Char) (decimal : Bool) : Json → Except TemplateFault Int
  | .int n => .ok n
  | .bool b => .ok (truthNumber b)
  | .float x =>
    if decimal then
      match (Arithmetic.floor x.abs : Except NoWholePart Int) with
      | .ok size => .ok (if x < 0.0 then -size else size)
      | .error fault => .error (.noWholePart fault)
    else .error (.notWhole letter "float")
  | v => .error (if decimal then .notReal letter v.kind else .notWhole letter v.kind)

def whole (p : Placeholder) (base : Nat) (mark : List Char) (v : Json) :
    Except TemplateFault (List Char) := do
  let n ← wholeOf p.letter (base = 10) v
  let digits := Nat.toDigits base n.natAbs
  let filled := List.replicate (p.precision.getD 0 - digits.length) '0' ++ digits
  let shown := p.number (n < 0) (if p.alternate then mark else []) filled
  return if p.letter = 'X' then shown.map Char.toUpper else shown

/-- The double that `%f` and its like write. -/
def floatOf (v : Json) : Except TemplateFault Float :=
  match v with
  | .int _ | .bool _ | .float _ => match v.toFloat with
    | .ok x => .ok x
    | .error _ => .error .tooLarge
  | v => .error (.notAFloat v.kind)

def float (p : Placeholder) (v : Json) : Except TemplateFault (List Char) := do
  let x ← floatOf v
  let value := Number.Binary64.ofFloat x
  let places := p.precision.getD 6
  let magnitude :=
    if x.isNaN then ['n', 'a', 'n']
    else if x.isInf then ['i', 'n', 'f']
    else match p.letter.toLower with
      | 'e' => Number.scientificText value places p.alternate
      | 'f' => Number.fixedMagnitude value places p.alternate
      | _ => Number.generalText value places p.alternate
  let shown := p.number (value.negative && !x.isNaN) [] magnitude
  return if p.letter.isUpper then shown.map Char.toUpper else shown

def character (p : Placeholder) (v : Json) : Except TemplateFault (List Char) :=
  match v with
  | .string s => match s.toList with
    | [c] => .ok (p.pad [c])
    | _ => .error .notACharacter
  | .int n => if 0 ≤ n ∧ n < 0x110000 then .ok (p.pad [Char.ofNat n.toNat])
    else .error .noSuchCharacter
  | .bool b => .ok (p.pad [Char.ofNat (truthNumber b)])
  | _ => .error .notACharacter

/-- A shown value with escapes in place of characters beyond ASCII. -/
def asciiText (s : String) : String :=
  String.ofList (s.toList.flatMap fun c =>
    if c.toNat < 128 then [c] else Text.escapeCode c.toNat)

/-- Writes a value; `index` is where the letter stands in the template. -/
def write (p : Placeholder) (index : Nat) (v : Json) : Except TemplateFault (List Char) :=
  match p.letter with
  | 's' => .ok (p.text v.text)
  | 'r' => .ok (p.text v.display)
  | 'a' => .ok (p.text (asciiText v.display))
  | 'd' | 'i' | 'u' => p.whole 10 [] v
  | 'o' => p.whole 8 ['0', 'o'] v
  | 'x' | 'X' => p.whole 16 ['0', 'x'] v
  | 'e' | 'E' | 'f' | 'F' | 'g' | 'G' => p.float v
  | 'c' => p.character v
  | letter => .error (.unknownLetter letter index)

end Placeholder

/-- Reads flags into a placeholder. -/
def readFlags (p : Placeholder) : List Char → Placeholder × List Char
  | '-' :: rest => readFlags { p with left := true } rest
  | '+' :: rest => readFlags { p with sign := true } rest
  | ' ' :: rest => readFlags { p with blank := true } rest
  | '#' :: rest => readFlags { p with alternate := true } rest
  | '0' :: rest => readFlags { p with zero := true } rest
  | rest => (p, rest)

/-- A count in a placeholder: its name, the largest one, and the machine word that holds it. -/
structure CountKind where
  name : String
  limit : Int
  word : String

def widthKind : CountKind := ⟨"width", 0x7fffffffffffffff, "ssize_t"⟩

def precisionKind : CountKind := ⟨"precision", 0x7fffffff, "int"⟩

/-- Reads digits, or takes the next value for a star. -/
def readCount (kind : CountKind) (values : List Json) (s : List Char) :
    Except TemplateFault (Int × List Char × List Json) :=
  match s, values with
  | '*' :: rest, v :: others =>
    match wholeValue? v with
    | some n =>
      if -(kind.limit + 1) ≤ n ∧ n ≤ kind.limit then .ok (n, rest, others)
      else .error (.valueTooLarge kind.word)
    | none => .error .widthNotWhole
  | '*' :: _, [] => .error .tooFewValues
  | s, values =>
    let n : Int := Number.digitsValue (s.takeWhile Char.isDigit)
    if n ≤ kind.limit then .ok (n, s.dropWhile Char.isDigit, values)
    else .error (.countTooLarge kind.name)

def readPrecision (values : List Json) (s : List Char) :
    Except TemplateFault (Option Nat × List Char × List Json) :=
  match s with
  | '.' :: rest => do
    let (n, rest, values) ← readCount precisionKind values rest
    return (some n.toNat, rest, values)
  | s => .ok (none, s, values)

/-- Letters that say how long a number is; they change nothing. -/
def skipLength : List Char → List Char
  | c :: rest => if c = 'h' || c = 'l' || c = 'L' then rest else c :: rest
  | [] => []

/-- Reads a placeholder after its percent sign. -/
def readPlaceholder (values : List Json) (s : List Char) :
    Except TemplateFault (Placeholder × List Char × List Json) :=
  match s with
  | '(' :: _ => .error .needsMapping
  | s => do
    let (flags, s) := readFlags { letter := '%' } s
    let (width, s, values) ← readCount widthKind values s
    let (precision, s, values) ← readPrecision values s
    match skipLength s with
    | [] => .error .incomplete
    | letter :: rest =>
      return ({ flags with
        left := flags.left || decide (width < 0)
        width := width.natAbs
        precision, letter }, rest, values)

/-- Fills in the rest of a template of `length` characters; two percent signs stand for one.  Each
round takes at least one character, so the template's length is fuel enough. -/
def fillFrom (length : Nat) : Nat → List Json → List Char → Except TemplateFault (List Char)
  | _, [], [] => .ok []
  | _, _ :: _, [] => .error .tooManyValues
  | 0, _, _ => .error .incomplete
  | fuel + 1, values, '%' :: '%' :: rest => return '%' :: (← fillFrom length fuel values rest)
  | fuel + 1, values, '%' :: rest => do
    let (p, after, values) ← readPlaceholder values rest
    match values with
    | [] => .error .tooFewValues
    | v :: others =>
      let shown ← p.write (length - after.length - 1) v
      return shown ++ (← fillFrom length fuel others after)
  | fuel + 1, values, c :: rest => return c :: (← fillFrom length fuel values rest)

/-- Fills in a template.  Without values a text is no template and stays as it is. -/
def fill (template : String) (values : List Json) : Except TemplateFault String :=
  if values.isEmpty then .ok template
  else
    let chars := template.toList
    (fillFrom chars.length chars.length values chars).map String.ofList

example : (fill "%s: %5.2f|%-4d|%%" [.string "a", .float 1.005, .int 7]).toOption =
    some "a:  1.00|7   |%" := by decide +kernel

end Journal
end TenderPricing
