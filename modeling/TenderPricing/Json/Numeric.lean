import TenderPricing.Json.Value
import TenderPricing.Number.Numeral
/-!
Numbers taken from untyped values.

`toFloat` takes every number and every numeral, `toInt?` only what stands for a whole number.
-/
namespace TenderPricing

/-- Why an untyped value gives no double. -/
inductive NumberFault where
  | notNumeral (text : String)
  | notNumeric (kind : String)
  | tooLarge
  deriving DecidableEq, Repr

namespace NumberFault

def message : NumberFault → String
  | notNumeral text => "could not convert string to float: " ++ Text.quoted text
  | notNumeric kind => "float() argument must be a string or a real number, not '" ++ kind ++ "'"
  | tooLarge => "int too large to convert to float"

end NumberFault

namespace Json

/-- The double nearest to a number or numeral.  Only a whole number can be too large: a numeral
or double beyond the range is an infinity. -/
def toFloat : Json → Except NumberFault Float
  | bool b => .ok (if b then 1.0 else 0.0)
  | int n =>
    let nearest := Number.floatOfInt n
    if nearest.isFinite then .ok nearest else .error .tooLarge
  | float x => .ok x
  | string s => match Number.readFloat? s with
    | some x => .ok x
    | none => .error (.notNumeral s)
  | v => .error (.notNumeric v.kind)

/-- The whole number that a value stands for.  Truth values stand for none. -/
def toInt? : Json → Option Int
  | int n => some n
  | float x =>
    if x.isFinite && (Number.Binary64.ofFloat x).isWhole then
      some (Number.Binary64.ofFloat x).floor
    else none
  | string s => Number.readInt? (Text.trim s)
  | _ => none

end Json

end TenderPricing
