import TenderPricing.Pricing.Distribution
import TenderPricing.Schema.Table
/-!
The ten tables of the service.

They can be created in two ways.  The migration lets the database fill in what an insert leaves
out; the service itself fills it in and has the database insist on it.
-/
namespace TenderPricing
namespace Schema

open Pricing

/-- Who creates the tables. -/
inductive Origin where
  | migration
  | service
  deriving DecidableEq, Repr

namespace Origin

def isService (o : Origin) : Bool := o = .service

end Origin

def keyColumn : Column := { name := "id", type := .uuid, required := true }

def requiredColumn (name : String) (type : ColumnType) : Column :=
  { name, type, required := true }

def optionalColumn (name : String) (type : ColumnType) : Column := { name, type }

/-- A column that is filled in where an insert leaves it out. -/
def filledColumn (o : Origin) (name : String) (type : ColumnType) (value : String) : Column :=
  match o with
  | .migration => { name, type, default := some value }
  | .service => { name, type, required := true }

/-- A moment that the database fills in. -/
def stampColumn (o : Origin) (name : String) : Column :=
  { name, type := .timestamp, required := o.isService, default := some "now()" }

/-- A reference to the row that owns this one. -/
def ownerColumn (o : Origin) (name : String) : Column :=
  { name, type := .uuid, required := o.isService }

/-- Untyped data, empty where the migration's database fills it in. -/
def dataColumn (o : Origin) (name : String) (required : Bool) : Column :=
  { name, type := .json, required
    default := if o.isService then none else some "'\x7b\x7d'::jsonb" }

/-- The axis that a setting names, required where there is an initial one. -/
def targetColumn (o : Origin) (name : String) (initial : Option Axis) : Column :=
  { name, type := .varchar 10, required := initial.isSome
    default := match o, initial with
      | .migration, some axis => some ("'" ++ axis.word ++ "'")
      | _, _ => none }

/-- The settings of a category. -/
def targetColumns (o : Origin) (c : Category) : List Column :=
  [targetColumn o c.baseKey (Targets.initial c).base,
    targetColumn o c.markupKey (Targets.initial c).markup]

def uniqueColumn (name : String) : Unique := { columns := [name] }

def ownedBy (column table : String) : ForeignKey := ⟨column, table, .cascade⟩

def refersTo (column table : String) : ForeignKey := ⟨column, table, .noAction⟩

/-- The index of one column, named after it. -/
def columnIndex (table column : String) : Index := ⟨"ix_" ++ table ++ "_" ++ column, [column]⟩

def roles : Table where
  name := "roles"
  columns := [{ name := "id", type := .serial, required := true },
    requiredColumn "name" (.varchar 50)]
  uniques := [uniqueColumn "name"]

def users (o : Origin) : Table where
  name := "users"
  columns := [
    keyColumn,
    requiredColumn "email" (.varchar 255),
    optionalColumn "full_name" (.varchar 255),
    optionalColumn "role_id" .integer,
    filledColumn o "is_active" .boolean "true",
    stampColumn o "created_at"]
  uniques := [uniqueColumn "email"]
  foreignKeys := [refersTo "role_id" "roles"]

def parameterTable : String := "markup_parameters"

def markupParameters (o : Origin) : Table where
  name := parameterTable
  columns := [
    keyColumn,
    requiredColumn "key" (.varchar 100),
    requiredColumn "label" (.varchar 255),
    filledColumn o "is_active" .boolean "true",
    filledColumn o "order_num" .integer "'0'",
    filledColumn o "default_value" (.numeric 8 4) "'0'",
    stampColumn o "created_at"]
  uniques := [uniqueColumn "key"]

def markupTactics (o : Origin) : Table where
  name := "markup_tactics"
  columns := [
    keyColumn,
    optionalColumn "name" (.varchar 255),
    dataColumn o "sequences" true,
    dataColumn o "base_costs" false,
    filledColumn o "is_global" .boolean "false",
    optionalColumn "user_id" .uuid,
    stampColumn o "created_at",
    stampColumn o "updated_at"]
  foreignKeys := [refersTo "user_id" "users"]

def tenders (o : Origin) : Table where
  name := "tenders"
  columns := [
    keyColumn,
    requiredColumn "title" (.varchar 500),
    requiredColumn "tender_number" (.varchar 100),
    optionalColumn "client_name" (.varchar 255),
    filledColumn o "version" .integer "'1'",
    optionalColumn "markup_tactic_id" .uuid,
    stampColumn o "created_at"]
  foreignKeys := [refersTo "markup_tactic_id" "markup_tactics"]

def tenderMarkupPercentage (o : Origin) : Table where
  name := "tender_markup_percentage"
  columns := [
    keyColumn,
    ownerColumn o "tender_id",
    ownerColumn o "markup_parameter_id",
    requiredColumn "value" (.numeric 8 4)]
  uniques := [⟨some "uq_tender_markup_parameter", ["tender_id", "markup_parameter_id"]⟩]
  foreignKeys := [ownedBy "tender_id" "tenders", refersTo "markup_parameter_id" parameterTable]
  indexes := [columnIndex "tender_markup_percentage" "tender_id"]

def tenderPricingDistribution (o : Origin) : Table where
  name := "tender_pricing_distribution"
  columns := [
    keyColumn,
    ownerColumn o "tender_id",
    optionalColumn "markup_tactic_id" .uuid] ++
    Category.all.flatMap (targetColumns o)
  uniques := [uniqueColumn "tender_id"]
  foreignKeys := [ownedBy "tender_id" "tenders", refersTo "markup_tactic_id" "markup_tactics"]

def subcontractGrowthExclusions (o : Origin) : Table where
  name := "subcontract_growth_exclusions"
  columns := [
    keyColumn,
    ownerColumn o "tender_id",
    requiredColumn "detail_cost_category_id" .uuid,
    requiredColumn "exclusion_type" (.varchar 20)]
  uniques := [⟨some "uq_growth_exclusion",
    ["tender_id", "detail_cost_category_id", "exclusion_type"]⟩]
  foreignKeys := [ownedBy "tender_id" "tenders"]
  indexes := [columnIndex "subcontract_growth_exclusions" "tender_id"]

def clientPositions (o : Origin) : Table where
  name := "client_positions"
  columns := [
    keyColumn,
    ownerColumn o "tender_id",
    requiredColumn "position_number" (.numeric 12 2),
    optionalColumn "item_no" (.varchar 100),
    requiredColumn "work_name" .text,
    optionalColumn "unit_code" (.varchar 20),
    optionalColumn "volume" (.numeric 18 4),
    optionalColumn "client_note" .text,
    filledColumn o "hierarchy_level" .integer "'0'",
    filledColumn o "is_additional" .boolean "false",
    optionalColumn "parent_position_id" .uuid,
    optionalColumn "total_commercial_material" (.numeric 18 2),
    optionalColumn "total_commercial_work" (.numeric 18 2)]
  foreignKeys := [ownedBy "tender_id" "tenders",
    ⟨"parent_position_id", "client_positions", .setNull⟩]
  indexes := [⟨"ix_client_positions_tender_number", ["tender_id", "position_number"]⟩]

def boqItems (o : Origin) : Table where
  name := "boq_items"
  columns := [
    keyColumn,
    ownerColumn o "tender_id",
    ownerColumn o "client_position_id",
    filledColumn o "sort_number" .integer "'0'",
    requiredColumn "boq_item_type" (.varchar 20),
    optionalColumn "quantity" (.numeric 18 4),
    optionalColumn "unit_rate" (.numeric 18 4),
    optionalColumn "total_amount" (.numeric 18 2),
    optionalColumn "detail_cost_category_id" .uuid,
    optionalColumn "commercial_markup" (.numeric 12 6),
    optionalColumn "total_commercial_material_cost" (.numeric 18 2),
    optionalColumn "total_commercial_work_cost" (.numeric 18 2),
    stampColumn o "updated_at"]
  foreignKeys := [ownedBy "tender_id" "tenders",
    ownedBy "client_position_id" "client_positions"]
  indexes := [columnIndex "boq_items" "tender_id"]

/-- All tables.  A table comes after those that its foreign keys name. -/
def tables (o : Origin) : List Table :=
  [roles, users o, markupParameters o, markupTactics o, tenders o, tenderMarkupPercentage o,
    tenderPricingDistribution o, subcontractGrowthExclusions o, clientPositions o, boqItems o]

end Schema
end TenderPricing
