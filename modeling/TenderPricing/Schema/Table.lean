/-!
Tables as the database creates them.

A table is its columns, its constraints and its indexes; `createStatements` writes it in the
language of the database, constraints after the columns and indexes as statements of their own.
-/
namespace TenderPricing
namespace Schema

inductive ColumnType where
  | serial
  | uuid
  | varchar (length : Nat)
  | text
  | boolean
  | integer
  | numeric (precision scale : Nat)
  | timestamp
  | json
  deriving DecidableEq, Repr

namespace ColumnType

def sql : ColumnType → String
  | serial => "SERIAL"
  | uuid => "UUID"
  | varchar length => "VARCHAR(" ++ toString length ++ ")"
  | text => "TEXT"
  | boolean => "BOOLEAN"
  | integer => "INTEGER"
  | numeric precision scale => "NUMERIC(" ++ toString precision ++ ", " ++ toString scale ++ ")"
  | timestamp => "TIMESTAMP WITH TIME ZONE"
  | json => "JSONB"

end ColumnType

structure Column where
  name : String
  type : ColumnType
  required : Bool := false
  /-- What the database fills in, as an expression. -/
  default : Option String := none
  deriving DecidableEq, Repr

namespace Column

def sql (c : Column) : String :=
  c.name ++ " " ++ c.type.sql ++
    (match c.default with
      | some value => " DEFAULT " ++ value
      | none => "") ++
    (if c.required then " NOT NULL" else "")

end Column

/-- Columns whose values must differ from row to row. -/
structure Unique where
  name : Option String := none
  columns : List String
  deriving DecidableEq, Repr

inductive OnDelete where
  | noAction
  | cascade
  | setNull
  deriving DecidableEq, Repr

structure ForeignKey where
  column : String
  table : String
  onDelete : OnDelete := .noAction
  deriving DecidableEq, Repr

structure Index where
  name : String
  columns : List String
  deriving DecidableEq, Repr

structure Table where
  name : String
  columns : List Column
  uniques : List Unique := []
  foreignKeys : List ForeignKey := []
  indexes : List Index := []
  deriving DecidableEq, Repr

def commaList (parts : List String) : String := ", ".intercalate parts

namespace Unique

def sql (u : Unique) : String :=
  (match u.name with
    | some name => "CONSTRAINT " ++ name ++ " "
    | none => "") ++ "UNIQUE (" ++ commaList u.columns ++ ")"

end Unique

namespace ForeignKey

def sql (k : ForeignKey) : String :=
  "FOREIGN KEY(" ++ k.column ++ ") REFERENCES " ++ k.table ++ " (id)" ++
    match k.onDelete with
    | .noAction => ""
    | .cascade => " ON DELETE CASCADE"
    | .setNull => " ON DELETE SET NULL"

end ForeignKey

namespace Table

/-- The tables that the foreign keys of a table name. -/
def references (t : Table) : List String := t.foreignKeys.map (·.table)

def sql (t : Table) : String :=
  "CREATE TABLE " ++ t.name ++ " ( " ++
    commaList (t.columns.map (·.sql) ++ ["PRIMARY KEY (id)"] ++ t.uniques.map (·.sql) ++
      t.foreignKeys.map (·.sql)) ++ " )"

end Table

namespace Index

def sql (table : String) (i : Index) : String :=
  "CREATE INDEX " ++ i.name ++ " ON " ++ table ++ " (" ++ commaList i.columns ++ ")"

end Index

end Schema
end TenderPricing
