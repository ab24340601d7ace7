import TenderPricing.Access.Token
import TenderPricing.Journal.Notice
import TenderPricing.Schema.Command
import TenderPricing.Setup.DatabaseUrl
import TenderPricing.Setup.Logging
import TenderPricing.Setup.Variables
/-!
Start and end of the service.

At its start the service reports the settings that are missing and creates the tables that are
missing; a database that cannot be reached does not keep it from starting.
-/
namespace TenderPricing
namespace Setup

open Schema

/-- Settings that only development can do without. -/
def neededVariables : List String := ["DATABASE_URL", "JWT_SECRET_KEY"]

def optionalVariables : List String := ["CELERY_BROKER_URL"]

def missingSettings (v : Variables) : List (Notice Float) :=
  (neededVariables.filter (!v.isGiven ·)).map .settingMissing ++
    (optionalVariables.filter (!v.isGiven ·)).map .optionalSettingMissing

/-- What the creation of tables did. -/
structure TableSetup where
  database : Database
  statements : List Statement
  ending : Option Ending
  notices : List (Notice Float)

/-- Creates the missing tables.  Without a database there is nothing to do. -/
def createTables (configured : Bool) (d : Database) : TableSetup :=
  if configured then
    let statements := initStatements d.catalogue
    { database := { d with catalogue := statements.foldl Statement.apply d.catalogue }
      statements
      ending := some .commit
      notices := [.tablesReady] }
  else { database := d, statements := [], ending := none, notices := [.noDatabase] }

/-- `createTables` at the start of the service; `failure` tells why the database cannot be
reached. -/
def launch (configured : Bool) (failure : Option String) (d : Database) : TableSetup :=
  match configured, failure with
  | true, some reason =>
    { database := d, statements := [], ending := none, notices := [.tablesFailed reason] }
  | _, _ => createTables configured d

/-- How often a service that ends gives back its connections. -/
def disposals : Nat := 1

/-- Why the service cannot start. -/
inductive StartFault where
  | level (fault : LevelFault)
  | url (fault : UrlFault)
  | threshold (fault : NumberFault)

/-- A service that has read its variables. -/
structure Started where
  logging : LogSetup
  databaseUrl : String
  settings : Settings
  signing : Access.Signing
  notices : List (Notice Float)

/-- Reads the variables: the journal first, then the address of the database, then the rest. -/
def start (v : Variables) : Except StartFault Started := do
  let logging ← (setUpLogging ((v "LOG_LEVEL").getD "INFO")
    (wantsJsonLines (v "LOG_FORMAT"))).mapError .level
  let url ← (databaseUrl (v "DATABASE_URL")).mapError .url
  let settings ← (Settings.ofVariables v).mapError .threshold
  return {
    logging, databaseUrl := url, settings
    signing := .ofVariables v
    notices := missingSettings v }

end Setup
end TenderPricing
