import TenderPricing.Schema.Statement
/-!
The migration that creates the tables, and the creation of missing tables at start-up.

A table whose name is taken is left alone, so the migration can run on a database that already has
some of the tables.  The standard parameters are inserted only along with their table.
-/
namespace TenderPricing
namespace Schema

/-- What a migration reports. -/
inductive Note where
  | created (table : String)
  | alreadyThere (table : String)
  | seeded (count : Nat)
  deriving DecidableEq, Repr

namespace Note

def text : Note → String
  | created table => "Created table: " ++ table
  | alreadyThere table => "Table " ++ table ++ " already exists — skipping create"
  | seeded count => "Seeded " ++ toString count ++ " markup parameters"

end Note

/-- What a migration does, in order. -/
inductive Event where
  | execute (s : Statement)
  | report (n : Note)
  deriving DecidableEq, Repr

/-- The statements among some events. -/
def statementsOf (events : List Event) : List Statement :=
  events.filterMap fun
    | .execute s => some s
    | .report _ => none

/-- The reports among some events. -/
def notesOf (events : List Event) : List Note :=
  events.filterMap fun
    | .execute _ => none
    | .report n => some n

/-- The catalogue after some events. -/
def afterEvents (c : Catalogue) (events : List Event) : Catalogue :=
  (statementsOf events).foldl Statement.apply c

/-- Inserts the standard parameters into their new table. -/
def seedEvents : List Event :=
  [.execute (.insertParameters standardParameters), .report (.seeded standardParameters.length)]

/-- Creates one table unless its name is taken. -/
def createEvents (c : Catalogue) (t : Table) : List Event :=
  if c.hasName t.name then [.report (.alreadyThere t.name)]
  else t.createStatements.map .execute ++ [.report (.created t.name)]

/-- Whether the parameters are to be inserted once the migration has come past a table.  The
catalogue is asked before that table is created. -/
def seedsAfter (c : Catalogue) (t : Table) : Bool :=
  t.name = parameterTable && !c.hasName parameterTable

/-- Comes past one table. -/
def passEvents (c : Catalogue) (t : Table) : List Event :=
  createEvents c t ++ if seedsAfter c t then seedEvents else []

def createAll (c : Catalogue) : List Table → List Event
  | [] => []
  | t :: rest =>
    let events := passEvents c t
    events ++ createAll (afterEvents c events) rest

/-- Creates the tables that are missing. -/
def upgradeEvents (c : Catalogue) : List Event := createAll c (tables .migration)

def dropAll (c : Catalogue) : List String → List Event
  | [] => []
  | name :: rest =>
    let events := if c.hasName name then [Event.execute (.dropTable name)] else []
    events ++ dropAll (afterEvents c events) rest

/-- Drops the tables that are there, those that refer to others first. -/
def downgradeEvents (c : Catalogue) : List Event :=
  dropAll c ((tables .migration).map (·.name)).reverse

/-- The statements by which the service itself creates what is missing. -/
def initStatements (c : Catalogue) : List Statement :=
  ((tables .service).filter fun t => !c.hasTable t.name).flatMap (·.createStatements)

end Schema
end TenderPricing
