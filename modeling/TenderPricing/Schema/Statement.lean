import TenderPricing.Schema.Tables
/-!
Statements that change a database, and the catalogue that says which tables it has.

A database may hold tables of one name in several schemas; statements work on the default one.
-/
namespace TenderPricing
namespace Schema

structure QualifiedName where
  schema : String
  name : String
  deriving DecidableEq, Repr

/-- The tables of a database. -/
abbrev Catalogue := List QualifiedName

/-- The schema that statements without a schema work on. -/
def defaultSchema : String := "public"

namespace Catalogue

/-- Whether some schema has a table of that name. -/
def hasName (c : Catalogue) (name : String) : Bool := c.any (·.name = name)

/-- Whether the default schema has the table. -/
def hasTable (c : Catalogue) (name : String) : Bool := c.contains ⟨defaultSchema, name⟩

end Catalogue

/-- A markup parameter that every database starts with. -/
structure StandardParameter where
  key : String
  label : String
  /-- in percent -/
  defaultValue : Nat
  deriving DecidableEq, Repr

def standardParameters : List StandardParameter := [
  ⟨"mechanization_service", "Служба механизации", 5⟩,
  ⟨"mbp_gsm", "МБП+ГСМ", 5⟩,
  ⟨"warranty_period", "Гарантийный период", 5⟩,
  ⟨"works_16_markup", "Работы 1,6", 60⟩,
  ⟨"works_cost_growth", "Рост стоимости работ", 10⟩,
  ⟨"material_cost_growth", "Рост стоимости материалов", 10⟩,
  ⟨"subcontract_works_cost_growth", "Рост работ субподряда", 10⟩,
  ⟨"subcontract_materials_cost_growth", "Рост материалов субподряда", 10⟩,
  ⟨"contingency_costs", "Непредвиденные", 3⟩,
  ⟨"overhead_own_forces", "ООЗ собств. силы", 10⟩,
  ⟨"overhead_subcontract", "ООЗ субподряд", 10⟩,
  ⟨"general_costs_without_subcontract", "ОФЗ (без субподряда)", 20⟩,
  ⟨"profit_own_forces", "Прибыль собств. силы", 10⟩,
  ⟨"profit_subcontract", "Прибыль субподряд", 16⟩]

inductive Statement where
  | createTable (t : Table)
  | createIndex (table : String) (i : Index)
  | insertParameters (rows : List StandardParameter)
  | dropTable (name : String)
  deriving DecidableEq, Repr

/-- The statements that create a table and its indexes. -/
def Table.createStatements (t : Table) : List Statement :=
  .createTable t :: t.indexes.map (.createIndex t.name)

namespace Statement

/-- The text of a statement that changes the schema; the others have none. -/
def sql? : Statement → Option String
  | createTable t => some t.sql
  | createIndex table i => some (i.sql table)
  | dropTable name => some ("DROP TABLE " ++ name)
  | insertParameters _ => none

/-- The rows that a statement inserts, numbered from one. -/
def insertedRows : Statement → List (StandardParameter × Nat)
  | insertParameters rows => rows.zipIdx 1
  | _ => []

/-- What a statement makes of the catalogue. -/
def apply (c : Catalogue) : Statement → Catalogue
  | createTable t => c ++ [⟨defaultSchema, t.name⟩]
  | dropTable name => c.filter (· != ⟨defaultSchema, name⟩)
  | _ => c

end Statement

end Schema
end TenderPricing
