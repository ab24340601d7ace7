import TenderPricing.Text.LowerCase
import TenderPricing.Text.Quoted
/-!
How the journal is set up: its least level and the form of its lines.
-/
namespace TenderPricing
namespace Setup

/-- The level of a word that names none. -/
def defaultRank : Nat := 20

/-- A capital of plain Latin letters; two small letters of other scripts share theirs. -/
def plainCapital (c : Char) : Char :=
  if c = 'ı' then 'I' else if c = 'ſ' then 'S' else c.toUpper

inductive LevelFault where
  /-- A word that names the form of a line in place of a level. -/
  | notALevel (form : String)
  deriving DecidableEq, Repr

namespace LevelFault

def message : LevelFault → String
  | notALevel form => "Unknown level: " ++ Text.quoted form

end LevelFault

/-- The rank of a level by its name in any letters. -/
def rankOfWord (word : String) : Except LevelFault Nat :=
  match String.ofList (word.toList.map plainCapital) with
  | "CRITICAL" | "FATAL" => .ok 50
  | "ERROR" => .ok 40
  | "WARNING" | "WARN" => .ok 30
  | "INFO" => .ok 20
  | "DEBUG" => .ok 10
  | "NOTSET" => .ok 0
  | "BASIC_FORMAT" => .error (.notALevel "%(levelname)s:%(name)s:%(message)s")
  | _ => .ok defaultRank

/-- The journal as it is set up. -/
structure LogSetup where
  rank : Nat
  jsonLines : Bool
  handlers : Nat := 1
  deriving DecidableEq, Repr

/-- Loggers that report warnings and worse only. -/
def quietLoggers : List String := ["uvicorn.access", "sqlalchemy.engine", "celery.redirected"]

def quietRank : Nat := 30

def setUpLogging (level : String) (jsonLines : Bool) : Except LevelFault LogSetup := do
  return { rank := ← rankOfWord level, jsonLines }

/-- Lines are objects unless plain text is asked for. -/
def wantsJsonLines (form : Option String) : Bool := Text.lower (form.getD "json") != "text"

end Setup
end TenderPricing
