import TenderPricing.Json.Numeric
import TenderPricing.Matching.Score
import TenderPricing.Text.LowerCase
/-!
The settings of the service and the environment variables that hold them.
-/
namespace TenderPricing
namespace Setup

/-- The values of environment variables. -/
abbrev Variables := String → Option String

namespace Variables

/-- Whether a variable is set to more than the empty text. -/
def isGiven (v : Variables) (name : String) : Bool := (v name).getD "" != ""

end Variables

structure Settings where
  databaseConfigured : Bool
  brokerConfigured : Bool
  allowedOrigins : List String
  matchThreshold : Float

/-- The origins that may call where none are set. -/
def defaultOrigins : String := "http://localhost:3000,http://localhost:5173"

/-- Origins stand between commas; blanks around them do not matter. -/
def readOrigins (text : String) : List String :=
  ((text.splitOn ",").map Text.trim).filter (· != "")

/-- The threshold of automatic matches. -/
def readThreshold (value : Option String) : Except NumberFault Float :=
  match value with
  | none => .ok Matching.defaultThreshold
  | some text => match Number.readFloat? text with
    | some x => .ok x
    | none => .error (.notNumeral text)

namespace Settings

def ofVariables (v : Variables) : Except NumberFault Settings := do
  let threshold ← readThreshold (v "MATCH_AUTO_THRESHOLD")
  return {
    databaseConfigured := v.isGiven "DATABASE_URL"
    brokerConfigured := v.isGiven "CELERY_BROKER_URL"
    allowedOrigins := readOrigins ((v "CORS_ORIGINS").getD defaultOrigins)
    matchThreshold := threshold }

end Settings

end Setup
end TenderPricing
