import TenderPricing.Schema.Migration
/-!
Migration commands.

There is one revision; a database is stamped with it or with nothing.  A command names the state
that it wants by a revision, the beginning of one, a word or a number of steps.  Commands run in a
transaction; a failed one leaves the database as it was.
-/
namespace TenderPricing
namespace Schema

def revision : String := "001_tender_markup_schema"

def revisionTitle : String := "tender_markup_schema"

def versionTable : String := "alembic_version"

structure Database where
  catalogue : Catalogue
  /-- The revision that the database is stamped with. -/
  version : Option String
  deriving DecidableEq, Repr

inductive Direction where
  | up
  | down
  deriving DecidableEq, Repr

namespace Direction

def word : Direction → String
  | up => "upgrade"
  | down => "downgrade"

end Direction

inductive CommandError where
  | unknownRevision (name : String)
  | stepsTooFar (text : String) (count : Nat)
  | notBelow (target : String)
  | rangeNotAllowed
  | rangeMissing
  /-- Scripts cannot ask the database which tables it has. -/
  | noAnswer
  deriving DecidableEq, Repr

namespace CommandError

def message : CommandError → String
  | unknownRevision name => "Can't locate revision identified by '" ++ name ++ "'"
  | stepsTooFar text count =>
    "Relative revision " ++ text ++ " didn't produce " ++ toString count ++ " migrations"
  | notBelow target =>
    "Destination " ++ target ++ " is not a valid downgrade target from current head(s)"
  | rangeNotAllowed => "Range revision not allowed"
  | rangeMissing => "downgrade with --sql requires <fromrev>:<torev>"
  | noAnswer => "'NoneType' object has no attribute 'scalar'"

end CommandError

/-- A state of the database as a command names it. -/
inductive Target where
  | base
  | head
  | steps (up : Bool) (count : Nat) (text : String)
  | unknown (name : String)
  deriving DecidableEq, Repr

/-- A sign and digits. -/
def readSteps? (text : String) : Option Target :=
  match text.toList with
  | sign :: digits =>
    if (sign = '+' || sign = '-') && !digits.isEmpty && digits.all Char.isDigit then
      some (.steps (sign = '+') (digits.foldl (fun n c => n * 10 + (c.toNat - 48)) 0) text)
    else none
  | [] => none

namespace Target

def ofString (text : String) : Target :=
  match readSteps? text with
  | some target => target
  | none =>
    if text = "base" then base
    else if text = "head" ∨ text = "heads" then head
    else if text != "" && text.toList.isPrefixOf revision.toList then head
    else unknown text

end Target

/-- Whether the one revision is in force, unless the stamp names an unknown one. -/
def stamped (version : Option String) : Except CommandError Bool :=
  match version with
  | none => .ok false
  | some name =>
    match Target.ofString name with
    | .head => .ok true
    | _ => .error (.unknownRevision name)

/-- Whether a command has to run the revision, from the state that a database is in. -/
def needsRun (direction : Direction) (text : String) (version : Option String) :
    Except CommandError Bool :=
  match direction, Target.ofString text with
  | _, .unknown name => .error (.unknownRevision name)
  | .up, .steps false count _ | .down, .steps true count _ => .error (.stepsTooFar text count)
  | .up, .base => do
    let _ ← stamped version
    return false
  | .up, .head => return !(← stamped version)
  | .up, .steps true count _ => do
    let isStamped ← stamped version
    if count = 1 && !isStamped then return true else .error (.stepsTooFar text count)
  | .down, .base => stamped version
  | .down, .head => do
    let isStamped ← stamped version
    if isStamped then return false else .error (.notBelow text)
  | .down, .steps false count _ => do
    let isStamped ← stamped version
    if count = 1 && isStamped then return true else .error (.stepsTooFar text count)

inductive Ending where
  | commit
  | rollback
  deriving DecidableEq, Repr

namespace Ending

def word : Ending → String
  | commit => "commit"
  | rollback => "rollback"

end Ending

/-- What a command did. -/
structure CommandRun where
  database : Database
  events : List Event := []
  /-- Whether the revision was begun. -/
  started : Bool := false
  ending : Option Ending
  result : Except CommandError Unit

/-- The events of the one revision. -/
def revisionEvents (direction : Direction) (c : Catalogue) : List Event :=
  match direction with
  | .up => upgradeEvents c
  | .down => downgradeEvents c

/-- The catalogue with the table that holds the stamp. -/
def withVersionTable (c : Catalogue) : Catalogue :=
  if c.hasTable versionTable then c else c ++ [⟨defaultSchema, versionTable⟩]

/-- Runs a command on a database. -/
def runCommand (direction : Direction) (text : String) (d : Database) : CommandRun :=
  if text.toList.contains ':' then
    { database := d, ending := none, result := .error .rangeNotAllowed }
  else match needsRun direction text d.version with
    | .error e => { database := d, ending := some .rollback, result := .error e }
    | .ok false =>
      { database := { d with catalogue := withVersionTable d.catalogue }
        ending := some .commit
        result := .ok () }
    | .ok true =>
      let events := revisionEvents direction d.catalogue
      { database :=
          { catalogue := withVersionTable (afterEvents d.catalogue events)
            version := match direction with
              | .up => some revision
              | .down => none }
        events
        started := true
        ending := some .commit
        result := .ok () }

/-- The two ends of a range, the first one missing where there is no colon. -/
def splitRange (text : String) : Option String × String :=
  let chars := text.toList
  match chars.dropWhile (· != ':') with
  | [] => (none, text)
  | _ :: rest => (some (String.ofList (chars.takeWhile (· != ':'))), String.ofList rest)

/-- Writes a script in place of running a command.  The revision asks which tables there are,
which no script can answer. -/
def writeScript (direction : Direction) (text : String) (d : Database) : CommandRun :=
  let (start, target) := splitRange text
  let failed (started : Bool) (e : CommandError) : CommandRun :=
    { database := d, started, ending := none, result := .error e }
  if direction = .down && start.isNone then failed false .rangeMissing
  else
    let version := match start with
      | some "base" | none => none
      | some name => some name
    match needsRun direction target version with
    | .error e => failed false e
    | .ok true => failed true .noAnswer
    | .ok false => { database := d, ending := none, result := .ok () }

namespace CommandRun

def line (logger text : String) : String := "INFO  [" ++ logger ++ "] " ++ text

/-- The line that announces the revision. -/
def startLine (direction : Direction) : String :=
  line "alembic.runtime.migration"
    ("Running " ++ direction.word ++ " " ++
      (match direction with
        | .up => " -> " ++ revision
        | .down => revision ++ " -> ") ++ ", " ++ revisionTitle)

/-- What a command shows on the console. -/
def console (direction : Direction) (r : CommandRun) : List String :=
  (if r.started then [startLine direction] else []) ++
    (notesOf r.events).map fun n => line "alembic.001" n.text

end CommandRun

end Schema
end TenderPricing
