import TenderPricing.Proofs.Schema.Contents
/-!
What the migration leaves behind, from whatever tables a database starts with.

An upgrade that the database does not refuse adds the tables whose name nobody has, the standard
parameters with theirs, and touches nothing else.  A table that was there before, made by the
service or by hand, is taken as it is.
-/
namespace TenderPricing
namespace Schema

/-- Runs the upgrade of the migration. -/
def upgrade (ids : Nat → String) (d : Contents) : Except Refused Contents :=
  performAll ids d (statementsOf (upgradeEvents (catalogueOf d)))

/-- Runs the downgrade of the migration. -/
def downgrade (ids : Nat → String) (d : Contents) : Except Refused Contents :=
  performAll ids d (statementsOf (downgradeEvents (catalogueOf d)))

/-- Has the service create what is missing. -/
def initialise (ids : Nat → String) (d : Contents) : Except Refused Contents :=
  performAll ids d (initStatements (catalogueOf d))

/-- A table as the migration leaves it, with the standard parameters where it is theirs. -/
def Table.migrated (ids : Nat → String) (t : Table) : StoredTable :=
  { t.stored with
    rows := if t.name = parameterTable then parameterRows ids standardParameters else [] }

/-- The tables with one more, unless its name is taken. -/
def withTable (ids : Nat → String) (d : Contents) (t : Table) : Contents :=
  if (catalogueOf d).hasName t.name then d else d ++ [t.migrated ids]

variable {ids : Nat → String} {d d' : Contents} {t : Table}

/-! ## One table -/

theorem filterMap_key_parameterRows (parameters : List StandardParameter) :
    (parameterRows ids parameters).filterMap (·.lookup "key") = parameters.map (·.key) := by
  have hkey : ∀ p : StandardParameter × Nat, List.lookup "key" [("id", ids p.2), ("key", p.1.key),
      ("label", p.1.label), ("order_num", toString p.2),
      ("default_value", toString p.1.defaultValue)] = some p.1.key := fun _ => rfl
  rw [parameterRows, List.filterMap_map]
  show List.filterMap (fun p : StandardParameter × Nat => List.lookup "key" _)
    (parameters.zipIdx 1) = _
  simp only [hkey]
  rw [List.filterMap_eq_map', ← Function.comp_def, ← List.map_map, List.zipIdx_map_fst]

theorem createStatements_eq (t : Table) :
    t.createStatements = .createTable t :: t.indexes.map (.createIndex t.name) := rfl

theorem performAll_createIndexes (h : (catalogueOf d).hasTable t.name = true)
    (indexes : List Index) : performAll ids d (indexes.map (.createIndex t.name)) = .ok d := by
  induction indexes with
  | nil => rfl
  | cons i rest ih =>
    show (perform ids d (.createIndex t.name i) >>= _) = _
    rw [perform, if_pos h]
    exact ih

theorem seedsAfter_iff {c : Catalogue} :
    seedsAfter c t = true ↔ t.name = parameterTable ∧ c.hasName t.name = false := by
  rw [seedsAfter, Bool.and_eq_true, decide_eq_true_iff, Bool.not_eq_true']
  exact and_congr_right fun hparameters => by rw [hparameters]

theorem passEvents_of_hasName {c : Catalogue} (h : c.hasName t.name = true) :
    passEvents c t = [.report (.alreadyThere t.name)] := by
  have hseeds : ¬ seedsAfter c t = true := by
    rw [seedsAfter_iff, h]
    exact fun hfree => Bool.noConfusion hfree.2
  rw [passEvents, createEvents, if_pos h, if_neg hseeds, List.append_nil]

theorem statementsOf_passEvents {c : Catalogue} (h : c.hasName t.name = false) :
    statementsOf (passEvents c t) = t.createStatements ++
      if t.name = parameterTable then [.insertParameters standardParameters] else [] := by
  rw [passEvents, createEvents, if_neg (by simp [h]), statementsOf_append, statementsOf_append,
    statementsOf_execute]
  by_cases hparameters : t.name = parameterTable
  · rw [if_pos (seedsAfter_iff.mpr ⟨hparameters, h⟩), if_pos hparameters]
    simp [statementsOf, seedEvents]
  · rw [if_neg fun hseeds => hparameters (seedsAfter_iff.mp hseeds).1, if_neg hparameters]
    simp [statementsOf]

theorem hasTable_append_stored (d : Contents) (t : Table) :
    (catalogueOf (d ++ [t.stored])).hasTable t.name = true := by
  rw [hasTable_iff]
  refine List.mem_map.mpr ⟨t.stored, ?_, rfl⟩
  simp

/-- The standard parameters go into the new table alone. -/
theorem perform_seed (h : (catalogueOf d).hasName parameterTable = false)
    (ht : t.name = parameterTable) :
    perform ids (d ++ [t.stored]) (.insertParameters standardParameters) =
      .ok (d ++ [t.migrated ids]) := by
  have hothers : ∀ u ∈ d, u.name ≠ inDefault parameterTable := by
    intro u hu heq
    have htaken : (catalogueOf d).hasName parameterTable = true :=
      hasName_iff.mpr ⟨u.name, List.mem_map_of_mem hu, by rw [heq]; rfl⟩
    exact Bool.noConfusion (h.symm.trans htaken)
  have hname : t.stored.name = inDefault parameterTable := congrArg inDefault ht
  have hinserted : updateTable parameterTable
      (fun u => { u with rows := u.rows ++ parameterRows ids standardParameters })
        (d ++ [t.stored]) = d ++ [t.migrated ids] := by
    have hkept : d.map (fun u => if u.name = inDefault parameterTable then
        { u with rows := u.rows ++ parameterRows ids standardParameters } else u) = d :=
      (List.map_congr_left fun u hu => if_neg (hothers u hu)).trans (List.map_id' d)
    rw [updateTable, List.map_append, hkept, List.map_singleton, if_pos hname, Table.migrated,
      if_pos ht]
    rfl
  have hexists : (catalogueOf (d ++ [t.stored])).hasTable parameterTable = true :=
    ht ▸ hasTable_append_stored d t
  have hdistinct : ∀ u ∈ d ++ [t.migrated ids], u.name = inDefault parameterTable →
      u.keys.Nodup := by
    intro u hu hparameters
    rcases List.mem_append.mp hu with hu | hu
    · exact absurd hparameters (hothers u hu)
    · obtain rfl := List.mem_singleton.mp hu
      rw [StoredTable.keys, Table.migrated, if_pos ht, filterMap_key_parameterRows]
      decide
  simp only [perform, hexists, hinserted]
  rw [if_neg (by simp), if_pos hdistinct]

/-- Creating one table succeeds if its foreign keys name tables that are there. -/
theorem performAll_passEvents
    (h : ∀ r ∈ t.references, r = t.name ∨ (catalogueOf d).hasTable r = true) :
    performAll ids d (statementsOf (passEvents (catalogueOf d) t)) =
      .ok (withTable ids d t) := by
  by_cases htaken : (catalogueOf d).hasName t.name = true
  · rw [passEvents_of_hasName htaken, withTable, if_pos htaken]
    rfl
  · have hfree : (catalogueOf d).hasTable t.name ≠ true := fun h => htaken (hasName_of_hasTable h)
    rw [Bool.not_eq_true] at htaken
    have hcreate : perform ids d (.createTable t) = .ok (d ++ [t.stored]) := by
      rw [perform, if_neg hfree, if_pos h]
    rw [withTable, if_neg (by simp [htaken]), statementsOf_passEvents htaken]
    show (perform ids d (.createTable t) >>= fun mid => performAll ids mid (_ ++ _)) = _
    rw [hcreate, ok_bind, performAll_append,
      performAll_createIndexes (hasTable_append_stored d t), ok_bind]
    by_cases hparameters : t.name = parameterTable
    · rw [if_pos hparameters]
      show (perform ids (d ++ [t.stored]) (.insertParameters standardParameters) >>= _) = _
      rw [perform_seed (hparameters ▸ htaken) hparameters]
      rfl
    · rw [if_neg hparameters, Table.migrated, if_neg hparameters]
      rfl

/-- If the database does not refuse it, creating one table leads to no other tables. -/
theorem eq_withTable
    (h : performAll ids d (statementsOf (passEvents (catalogueOf d) t)) = .ok d') :
    d' = withTable ids d t := by
  by_cases htaken : (catalogueOf d).hasName t.name = true
  · rw [passEvents_of_hasName htaken] at h
    rw [withTable, if_pos htaken]
    exact (Except.ok.inj h).symm
  · have htargets : ∀ r ∈ t.references, r = t.name ∨ (catalogueOf d).hasTable r = true := by
      rw [statementsOf_passEvents (by simpa using htaken), createStatements_eq,
        List.cons_append] at h
      obtain ⟨mid, hcreate, -⟩ := bind_eq_ok_iff.mp h
      exact targets_of_createTable hcreate
    rw [performAll_passEvents htargets] at h
    exact (Except.ok.inj h).symm

/-! ## All tables -/

theorem statementsOf_createAll_cons (c : Catalogue) (t : Table) (rest : List Table) :
    statementsOf (createAll c (t :: rest)) = statementsOf (passEvents c t) ++
      statementsOf (createAll (afterEvents c (passEvents c t)) rest) := by
  rw [createAll, statementsOf_append]

/-- What is left of the run after one table is a run on the database with that table. -/
theorem performAll_createAll_cons {mid : Contents} {rest : List Table}
    (h : performAll ids d (statementsOf (passEvents (catalogueOf d) t)) = .ok mid) :
    performAll ids d (statementsOf (createAll (catalogueOf d) (t :: rest))) =
      performAll ids mid (statementsOf (createAll (catalogueOf mid) rest)) := by
  have hcatalogue : afterEvents (catalogueOf d) (passEvents (catalogueOf d) t) =
      catalogueOf mid := (catalogueOf_performAll h).symm
  rw [statementsOf_createAll_cons, performAll_append, h, ok_bind, hcatalogue]

theorem eq_foldl_withTable {ts : List Table} : ∀ {d : Contents},
    performAll ids d (statementsOf (createAll (catalogueOf d) ts)) = .ok d' →
      d' = ts.foldl (withTable ids) d := by
  induction ts with
  | nil =>
    intro d h
    exact (Except.ok.inj h).symm
  | cons t rest ih =>
    intro d h
    have hsplit := h
    rw [statementsOf_createAll_cons, performAll_append] at hsplit
    obtain ⟨mid, hmid, -⟩ := bind_eq_ok_iff.mp hsplit
    rw [performAll_createAll_cons hmid] at h
    rw [ih h, eq_withTable hmid]
    rfl

theorem hasName_append {c c' : Catalogue} {name : String} :
    Catalogue.hasName (c ++ c') name = (c.hasName name || c'.hasName name) := List.any_append

theorem catalogueOf_append (d d' : Contents) :
    catalogueOf (d ++ d') = catalogueOf d ++ catalogueOf d' := List.map_append

/-- The run adds the tables whose name nobody has, in order. -/
theorem foldl_withTable {ts : List Table} (hts : (ts.map (·.name)).Nodup) : ∀ {d : Contents},
    ts.foldl (withTable ids) d =
      d ++ (ts.filter fun t => !(catalogueOf d).hasName t.name).map (·.migrated ids) := by
  induction ts with
  | nil => simp
  | cons t rest ih =>
    intro d
    obtain ⟨hnew, hrest⟩ := List.nodup_cons.mp hts
    rw [List.foldl_cons, ih hrest, withTable, List.filter_cons]
    split_ifs with htaken hfree hfree
    · rw [htaken] at hfree
      exact Bool.noConfusion hfree
    · rfl
    · -- the new table takes no name of the others
      have hothers : ∀ u ∈ rest, (catalogueOf (d ++ [t.migrated ids])).hasName u.name =
          (catalogueOf d).hasName u.name := by
        intro u hu
        have hne : t.name ≠ u.name := fun heq => hnew (List.mem_map.mpr ⟨u, hu, heq.symm⟩)
        rw [catalogueOf_append, hasName_append]
        show (_ || (decide (t.name = u.name) || false)) = _
        rw [decide_eq_false hne, Bool.or_false, Bool.or_false]
      rw [List.filter_congr (q := fun u => !(catalogueOf d).hasName u.name)
        fun u hu => by rw [hothers u hu], List.append_assoc]
      rfl
    · simp [htaken] at hfree

theorem nodup_tables (o : Origin) : ((tables o).map (·.name)).Nodup := by
  cases o <;> decide

/-- An upgrade adds the tables whose name nobody has. -/
theorem eq_of_upgrade (h : upgrade ids d = .ok d') :
    d' = d ++ ((tables .migration).filter fun t => !(catalogueOf d).hasName t.name).map
      (·.migrated ids) := by
  rw [← foldl_withTable (nodup_tables .migration)]
  exact eq_foldl_withTable h

theorem mem_of_upgrade (h : upgrade ids d = .ok d') {u : StoredTable} (hu : u ∈ d) : u ∈ d' := by
  rw [eq_of_upgrade h]
  exact List.mem_append_left _ hu

theorem migrated_mem_of_upgrade (h : upgrade ids d = .ok d') (ht : t ∈ tables .migration)
    (hfree : (catalogueOf d).hasName t.name = false) : t.migrated ids ∈ d' := by
  rw [eq_of_upgrade h]
  refine List.mem_append_right _ (List.mem_map_of_mem ?_)
  exact List.mem_filter.mpr ⟨ht, by rw [hfree]; rfl⟩

theorem key_mem_keys_migrated (ht : t.name = parameterTable) {p : StandardParameter}
    (hp : p ∈ standardParameters) : p.key ∈ (t.migrated ids).keys := by
  rw [StoredTable.keys, Table.migrated, if_pos ht, filterMap_key_parameterRows]
  exact List.mem_map_of_mem hp

theorem hasTable_of_upgrade (h : upgrade ids d = .ok d') (ht : t ∈ tables .migration)
    (hname : (catalogueOf d).hasTable t.name = true ∨ (catalogueOf d).hasName t.name = false) :
    (catalogueOf d').hasTable t.name = true := by
  rw [hasTable_iff]
  rcases hname with hthere | hfree
  · obtain ⟨u, hu, hname⟩ := List.mem_map.mp (hasTable_iff.mp hthere)
    exact List.mem_map.mpr ⟨u, mem_of_upgrade h hu, hname⟩
  · exact List.mem_map.mpr ⟨_, migrated_mem_of_upgrade h ht hfree, rfl⟩

/-- After an upgrade a table is there unless another schema alone has its name.  The parameters are
there if their table is new; a table that was there before keeps its rows and gets no others. -/
theorem upgrade_completes_tables (h : upgrade ids d = .ok d') :
    (∀ t ∈ tables .migration,
      (catalogueOf d).hasTable t.name = true ∨ (catalogueOf d).hasName t.name = false →
        (catalogueOf d').hasTable t.name = true) ∧
    ((catalogueOf d).hasName parameterTable = false →
      ∃ u ∈ d', u.name = inDefault parameterTable ∧ ∀ p ∈ standardParameters, p.key ∈ u.keys) ∧
    ∀ u ∈ d, u ∈ d' := by
  refine ⟨fun t ht hname => hasTable_of_upgrade h ht hname, fun hfree => ?_,
    fun u hu => mem_of_upgrade h hu⟩
  have ht : markupParameters .migration ∈ tables .migration := by simp [tables]
  exact ⟨_, migrated_mem_of_upgrade h ht hfree, rfl, fun p hp => key_mem_keys_migrated rfl hp⟩

/-- Roles of an earlier version, and an archive in a schema of its own. -/
def archivedContents : Contents := [
  ⟨inDefault "roles", [], [[("id", "1"), ("name", "Admin")]]⟩,
  ⟨⟨"archive", "boq_items"⟩, [], [[("id", "i-1")]]⟩]

theorem upgrade_completes_tables_archived :
    ∃ d', upgrade toString archivedContents = .ok d' ∧
      ((∀ t ∈ tables .migration, (catalogueOf archivedContents).hasTable t.name = true ∨
        (catalogueOf archivedContents).hasName t.name = false →
          (catalogueOf d').hasTable t.name = true) ∧
      ((catalogueOf archivedContents).hasName parameterTable = false →
        ∃ u ∈ d', u.name = inDefault parameterTable ∧ ∀ p ∈ standardParameters, p.key ∈ u.keys) ∧
      ∀ u ∈ archivedContents, u ∈ d') := by
  have hreturns : upgrade toString archivedContents = .ok (archivedContents ++
      ((tables .migration).filter fun t => !(catalogueOf archivedContents).hasName t.name).map
        (·.migrated toString)) := by decide +kernel
  exact ⟨_, hreturns, upgrade_completes_tables hreturns⟩

/-- The tables as the service creates them. -/
def createdByService : Contents := (tables .service).map (·.stored)

/-- After the service has created the tables, an upgrade inserts no parameters. -/
theorem createdByService_has_no_parameters :
    initialise toString [] = .ok createdByService ∧
      upgrade toString createdByService = .ok createdByService ∧
      ¬ ∃ u ∈ createdByService, u.name = inDefault parameterTable ∧
        ∀ p ∈ standardParameters, p.key ∈ u.keys := by
  decide +kernel

end Schema
end TenderPricing
