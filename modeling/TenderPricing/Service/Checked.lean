import TenderPricing.Json.Numeric
import TenderPricing.Markup.RawStep
/-!
Checked reading of request data.

A reader turns an untyped value into a typed one or lists every problem, each with its place.
Readers are put together as applicatives, so one problem does not hide another.
-/
namespace TenderPricing
namespace Service

open Markup

inductive ProblemKind where
  | missing
  | notAnObject
  | notAList
  | notADictionary
  | notText
  | notAFloat
  | noFloatNumeral
  | notAnInteger
  | noIntegerNumeral
  | numeralTooLong
  | fraction
  | notFinite
  | notATruthValue
  | noTruthWord
  | tooSmall
  | tooLarge
  deriving DecidableEq, Repr

namespace ProblemKind

def word : ProblemKind → String
  | missing => "missing"
  | notAnObject => "model_attributes_type"
  | notAList => "list_type"
  | notADictionary => "dict_type"
  | notText => "string_type"
  | notAFloat => "float_type"
  | noFloatNumeral => "float_parsing"
  | notAnInteger => "int_type"
  | noIntegerNumeral => "int_parsing"
  | numeralTooLong => "int_parsing_size"
  | fraction => "int_from_float"
  | notFinite => "finite_number"
  | notATruthValue => "bool_type"
  | noTruthWord => "bool_parsing"
  | tooSmall => "greater_than_equal"
  | tooLarge => "less_than_equal"

end ProblemKind

/-- A place in a request: names of members and positions in lists. -/
abbrev Place := List Json

/-- What is wrong, and where. -/
structure Problem where
  kind : ProblemKind
  place : Place

inductive Checked (β : Type) where
  | valid (value : β)
  | invalid (problems : List Problem)

namespace Checked

variable {β γ : Type}

/-- Problems of both sides are listed, the left ones first. -/
def apply (f : Checked (β → γ)) (x : Unit → Checked β) : Checked γ :=
  match f, x () with
  | valid f, valid x => valid (f x)
  | valid _, invalid problems => invalid problems
  | invalid problems, valid _ => invalid problems
  | invalid first, invalid later => invalid (first ++ later)

instance : Applicative Checked where
  pure := valid
  seq := apply

end Checked

/-- Reads the value at a place. -/
abbrev Reader (β : Type) := Place → Json → Checked β

variable {β : Type}

def problem (place : Place) (kind : ProblemKind) : Checked β := .invalid [⟨kind, place⟩]

/-- A member that must be there. -/
def required (members : Members) (place : Place) (name : String) (read : Reader β) : Checked β :=
  match members.lookup name with
  | some value => read (place ++ [.string name]) value
  | none => problem (place ++ [.string name]) .missing

/-- A member with a default. -/
def optional (members : Members) (place : Place) (name : String) (default : β) (read : Reader β) :
    Checked β :=
  match members.lookup name with
  | some value => read (place ++ [.string name]) value
  | none => .valid default

def readText : Reader String := fun place value => match value with
  | .string s => .valid s
  | _ => problem place .notText

/-- A value that may be null. -/
def orNone (read : Reader β) : Reader (Option β) := fun place value => match value with
  | .null => .valid none
  | value => some <$> read place value

/-- White space: the separators among the blanks do not count. -/
def isWhiteSpace (c : Char) : Bool := Text.isBlank c && !(0x1C ≤ c.toNat && c.toNat ≤ 0x1F)

def trimWhiteSpace (s : String) : List Char :=
  ((s.toList.dropWhile isWhiteSpace).reverse.dropWhile isWhiteSpace).reverse

/-- The text without its underscores, which may be neither first nor last nor doubled. -/
def withoutUnderscores? (s : List Char) : Option (List Char) :=
  let doubled := (s.zip s.tail).any fun (c, d) => c = '_' && d = '_'
  if s.head? = some '_' || s.getLast? = some '_' || doubled then none
  else some (s.filter (· != '_'))

/-- The double that a plain numeral stands for: no underscores, no digits of other scripts, no
blanks inside. -/
def plainFloat? (s : List Char) : Option Float :=
  if s.all fun c => c.toNat < 128 && c != '_' && !isWhiteSpace c then
    Number.readFloat? (String.ofList s)
  else none

/-- The double that a numeral of a request stands for. -/
def requestFloat? (s : String) : Option Float :=
  match plainFloat? (trimWhiteSpace s) with
  | some x => some x
  | none => (withoutUnderscores? s.toList).bind plainFloat?

/-- Truth values count as zero and one. -/
def readFloat : Reader Float := fun place value => match value with
  | .float x => .valid x
  | .bool b => .valid (if b then 1.0 else 0.0)
  | .int n => match (Json.int n).toFloat with
    | .ok x => .valid x
    | .error _ => problem place .notAFloat
  | .string s => match requestFloat? s with
    | some x => .valid x
    | none => problem place .noFloatNumeral
  | _ => problem place .notAFloat

/-- A double from `low` to `high`. -/
def readFloatBetween (low high : Float) : Reader Float := fun place value =>
  match readFloat place value with
  | .invalid problems => .invalid problems
  | .valid x =>
    if high < x then problem place .tooLarge
    else if x < low then problem place .tooSmall
    else .valid x

/-- The bound below which a double counts as a whole number, in either direction. -/
def wholeBound : Float := 9223372036854775808.0

/-- A whole number written as decimal digits, perhaps with a sign and a fraction of zeros. -/
def requestInt? (s : String) : Option Int :=
  let cs := trimWhiteSpace s
  let whole := cs.takeWhile (· != '.')
  let zeros := (cs.dropWhile (· != '.')).drop 1
  if zeros.all (· = '0') then
    (withoutUnderscores? whole).bind fun digits =>
      if digits.all fun c => c.isDigit || c = '-' || c = '+' then
        Number.readInt? (String.ofList digits)
      else none
  else none

def readInteger : Reader Int := fun place value => match value with
  | .int n => .valid n
  | .bool b => .valid (if b then 1 else 0)
  | .float x =>
    if !x.isFinite then problem place .notFinite
    else if !(Number.Binary64.ofFloat x).isWhole then problem place .fraction
    else if -wholeBound < x && x < wholeBound then .valid (Number.Binary64.ofFloat x).floor
    else problem place .numeralTooLong
  | .string s =>
    if s.utf8ByteSize > Number.maxDigits then problem place .numeralTooLong
    else match requestInt? s with
      | some n => .valid n
      | none => problem place .noIntegerNumeral
  | _ => problem place .notAnInteger

def trueWords : List String := ["1", "on", "t", "true", "y", "yes"]

def falseWords : List String := ["0", "off", "f", "false", "n", "no"]

/-- A truth value as a word, in capital or small letters. -/
def readTruthWord (place : Place) (s : String) : Checked Bool :=
  let word := String.ofList (s.toList.map Char.toLower)
  if trueWords.contains word then .valid true
  else if falseWords.contains word then .valid false
  else problem place .noTruthWord

def readTruth : Reader Bool := fun place value => match value with
  | .bool b => .valid b
  | .string s => readTruthWord place s
  | .int 0 => .valid false
  | .int 1 => .valid true
  | .int _ => problem place .noTruthWord
  | .float x =>
    if x == 0.0 then .valid false
    else if x == 1.0 then .valid true
    else if x.isFinite && (Number.Binary64.ofFloat x).isWhole then problem place .noTruthWord
    else problem place .notATruthValue
  | _ => problem place .notATruthValue

/-- Reads the elements from position `index` on. -/
def readElements (read : Reader β) (place : Place) : Nat → List Json → Checked (List β)
  | _, [] => .valid []
  | index, value :: rest =>
    List.cons <$> read (place ++ [.int index]) value <*> readElements read place (index + 1) rest

def readList (read : Reader β) : Reader (List β) := fun place value => match value with
  | .array elements => readElements read place 0 elements
  | _ => problem place .notAList

def readEntries (read : Reader β) (place : Place) : Members → Checked (List (String × β))
  | [] => .valid []
  | (key, value) :: rest =>
    (fun v others => (key, v) :: others) <$> read (place ++ [.string key]) value <*>
      readEntries read place rest

/-- A dictionary whose values are all read in one way. -/
def readDictionary (read : Reader β) : Reader (List (String × β)) := fun place value =>
  match value with
  | .object members => readEntries read place members
  | _ => problem place .notADictionary

/-- An object as it is, whatever its members hold. -/
def readObject : Reader Json := fun place value => match value with
  | .object members => .valid (.object members)
  | _ => problem place .notADictionary

/-- An object with known members. -/
def readRecord (read : Members → Place → Checked β) : Reader β := fun place value =>
  match value with
  | .object members => read members place
  | _ => problem place .notAnObject

/-- The body of a request.  Null counts as no body. -/
def readBody (read : Members → Place → Checked β) (body : Option Json) : Checked β :=
  match body with
  | none | some .null => problem [.string "body"] .missing
  | some value => readRecord read [.string "body"] value

end Service
end TenderPricing
