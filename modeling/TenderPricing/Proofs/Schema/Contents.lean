import Mathlib.Data.List.Nodup
import TenderPricing.Proofs.Outcome
import TenderPricing.Schema.Migration
/-!
Databases with rows, and what statements do to them.

`perform` is what the database does with a statement.  It refuses a table whose name is taken or
whose foreign keys name a table that is missing, and it does not drop a table that another one
refers to.  On a database that performs the statements of a migration, the catalogue changes as the
migration assumes.

Of a table its name, the tables its foreign keys name and its rows are kept.  Columns are taken to be
those that the keys need, and the names of indexes to be free.
-/
namespace TenderPricing
namespace Schema

/-- The values of a row by column, as the database writes them; what the database fills in by itself
is left out. -/
abbrev Row := List (String × String)

structure StoredTable where
  name : QualifiedName
  /-- The tables that the foreign keys name. -/
  references : List QualifiedName
  rows : List Row
  deriving DecidableEq, Repr

/-- The values of the unique column of markup parameters. -/
def StoredTable.keys (t : StoredTable) : List String := t.rows.filterMap (·.lookup "key")

abbrev Contents := List StoredTable

def catalogueOf (d : Contents) : Catalogue := d.map (·.name)

/-- The name of a table in the schema that statements work on. -/
def inDefault (name : String) : QualifiedName := ⟨defaultSchema, name⟩

/-- A table as it is created. -/
def Table.stored (t : Table) : StoredTable := ⟨inDefault t.name, t.references.map inDefault, []⟩

/-- The rows that an insert of markup parameters adds, where `ids` gives the random identifiers. -/
def parameterRows (ids : Nat → String) (parameters : List StandardParameter) : List Row :=
  (Statement.insertParameters parameters).insertedRows.map fun (p, n) =>
    [("id", ids n), ("key", p.key), ("label", p.label), ("order_num", toString n),
      ("default_value", toString p.defaultValue)]

/-- Why a database refuses a statement. -/
inductive Refused where
  | nameTaken (table : String)
  | noTarget (table : String)
  | noTable (table : String)
  | referredTo (table : String)
  | keyTaken
  deriving DecidableEq, Repr

/-- The tables, the one of that name changed. -/
def updateTable (name : String) (f : StoredTable → StoredTable) (d : Contents) : Contents :=
  d.map fun t => if t.name = inDefault name then f t else t

section Perform

variable (ids : Nat → String)

/-- What a database does with a statement. -/
def perform (d : Contents) : Statement → Except Refused Contents
  | .createTable t =>
    if (catalogueOf d).hasTable t.name then .error (.nameTaken t.name)
    else if ∀ r ∈ t.references, r = t.name ∨ (catalogueOf d).hasTable r = true then
      .ok (d ++ [t.stored])
    else .error (.noTarget t.name)
  | .createIndex table _ =>
    if (catalogueOf d).hasTable table then .ok d else .error (.noTable table)
  | .insertParameters parameters =>
    let inserted := updateTable parameterTable
      (fun t => { t with rows := t.rows ++ parameterRows ids parameters }) d
    if !(catalogueOf d).hasTable parameterTable then .error (.noTable parameterTable)
    else if ∀ t ∈ inserted, t.name = inDefault parameterTable → t.keys.Nodup then .ok inserted
    else .error .keyTaken
  | .dropTable name =>
    if !(catalogueOf d).hasTable name then .error (.noTable name)
    else if ∃ t ∈ d, t.name ≠ inDefault name ∧ inDefault name ∈ t.references then
      .error (.referredTo name)
    else .ok (d.filter (·.name != inDefault name))

/-- Performs statements in order, up to the first one that is refused. -/
def performAll (d : Contents) : List Statement → Except Refused Contents
  | [] => .ok d
  | s :: rest => do performAll (← perform ids d s) rest

end Perform

variable {ids : Nat → String} {d d' : Contents}

/-! ## Statements -/

@[simp] theorem statementsOf_append (xs ys : List Event) :
    statementsOf (xs ++ ys) = statementsOf xs ++ statementsOf ys := List.filterMap_append ..

@[simp] theorem statementsOf_execute (statements : List Statement) :
    statementsOf (statements.map .execute) = statements := by
  rw [statementsOf, List.filterMap_map]
  exact List.filterMap_some

theorem performAll_append (xs ys : List Statement) :
    performAll ids d (xs ++ ys) = performAll ids d xs >>= fun mid => performAll ids mid ys := by
  induction xs generalizing d with
  | nil => rfl
  | cons s rest ih =>
    show (perform ids d s >>= fun mid => performAll ids mid (rest ++ ys)) = _
    cases h : perform ids d s with
    | error e => simp [performAll, h, Bind.bind, Except.bind]
    | ok mid => simp [performAll, h, ok_bind, ih]

/-- Where a statement stood among those performed, the database performed it. -/
theorem exists_of_performAll {before after : List Statement} {s : Statement}
    (h : performAll ids d (before ++ s :: after) = .ok d') :
    ∃ mid next, performAll ids d before = .ok mid ∧ perform ids mid s = .ok next := by
  rw [performAll_append] at h
  obtain ⟨mid, hbefore, hrest⟩ := bind_eq_ok_iff.mp h
  obtain ⟨next, hnext, -⟩ := bind_eq_ok_iff.mp hrest
  exact ⟨mid, next, hbefore, hnext⟩

/-! ## What was performed -/

theorem targets_of_createTable {t : Table} (h : perform ids d (.createTable t) = .ok d') :
    ∀ r ∈ t.references, r = t.name ∨ (catalogueOf d).hasTable r = true := by
  rw [perform] at h
  split_ifs at h with htaken htargets
  exact htargets

theorem unreferenced_of_dropTable {name : String} (h : perform ids d (.dropTable name) = .ok d') :
    ∀ t ∈ d, t.name ≠ inDefault name → inDefault name ∉ t.references := by
  rw [perform] at h
  split_ifs at h with hmissing hreferred
  intro t ht hne hmem
  exact hreferred ⟨t, ht, hne, hmem⟩

theorem catalogueOf_updateTable {name : String} {f : StoredTable → StoredTable}
    (h : ∀ t, (f t).name = t.name) : catalogueOf (updateTable name f d) = catalogueOf d := by
  rw [catalogueOf, updateTable, List.map_map]
  refine List.map_congr_left fun t _ => ?_
  show (if t.name = inDefault name then f t else t).name = t.name
  split_ifs
  · exact h t
  · rfl

/-- The catalogue changes as a migration assumes. -/
theorem catalogueOf_perform {s : Statement} (h : perform ids d s = .ok d') :
    catalogueOf d' = s.apply (catalogueOf d) := by
  cases s with
  | createTable t =>
    rw [perform] at h
    split_ifs at h
    obtain rfl := Except.ok.inj h
    exact List.map_append
  | createIndex table i =>
    rw [perform] at h
    split_ifs at h
    obtain rfl := Except.ok.inj h
    rfl
  | insertParameters parameters =>
    simp only [perform] at h
    split_ifs at h
    obtain rfl := Except.ok.inj h
    exact catalogueOf_updateTable fun _ => rfl
  | dropTable name =>
    rw [perform] at h
    split_ifs at h
    obtain rfl := Except.ok.inj h
    show (d.filter ((· != inDefault name) ∘ (·.name))).map (·.name) = _
    exact List.filter_map.symm

theorem catalogueOf_performAll {statements : List Statement}
    (h : performAll ids d statements = .ok d') :
    catalogueOf d' = statements.foldl Statement.apply (catalogueOf d) := by
  induction statements generalizing d with
  | nil =>
    obtain rfl := Except.ok.inj h
    rfl
  | cons s rest ih =>
    obtain ⟨mid, hs, hrest⟩ := bind_eq_ok_iff.mp h
    rw [ih hrest, catalogueOf_perform hs]
    rfl

/-! ## Names -/

theorem hasTable_iff {c : Catalogue} {name : String} :
    c.hasTable name = true ↔ inDefault name ∈ c := List.contains_iff_mem

theorem hasName_iff {c : Catalogue} {name : String} :
    c.hasName name = true ↔ ∃ q ∈ c, q.name = name := by
  rw [Catalogue.hasName, List.any_eq_true]
  exact exists_congr fun q => and_congr_right fun _ => decide_eq_true_iff

theorem hasName_of_hasTable {c : Catalogue} {name : String} (h : c.hasTable name = true) :
    c.hasName name = true :=
  hasName_iff.mpr ⟨inDefault name, hasTable_iff.mp h, rfl⟩

theorem inDefault_injective : Function.Injective inDefault := by
  intro name name' h
  exact congrArg QualifiedName.name h

end Schema
end TenderPricing
