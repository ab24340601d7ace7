import TenderPricing.Proofs.Schema.Upgrade
/-!
An upgrade and the downgrade after it, on a database of one schema.

No table of the migration refers to a later one, so an upgrade finds the targets of every foreign
key, whichever tables were there before, and a downgrade, which goes backwards, never meets a table
that another one still refers to.
-/
namespace TenderPricing
namespace Schema

variable {ids : Nat → String} {d : Contents}

/-- The names of the ten tables, in the order in which they are created. -/
def tableNames : List String := (tables .migration).map (·.name)

/-- A database of one schema, in which any of the ten tables may be there. -/
structure PartlyMigrated (d : Contents) : Prop where
  oneSchema : ∀ u ∈ d, u.name.schema = defaultSchema
  /-- Those of the ten tables that are there refer to the tables they should. -/
  keys : ∀ u ∈ d, ∀ t ∈ tables .migration, u.name = inDefault t.name →
    u.references = t.references.map inDefault
  /-- No other table refers to one of the ten. -/
  others : ∀ u ∈ d, (∀ t ∈ tables .migration, u.name ≠ inDefault t.name) →
    ∀ t ∈ tables .migration, inDefault t.name ∉ u.references

/-- The tables that are none of the ten. -/
def otherTables (d : Contents) : Contents :=
  d.filter fun u => decide (∀ t ∈ tables .migration, u.name ≠ inDefault t.name)

/-! ## The order of the tables -/

/-- No table refers to a later one. -/
theorem tables_ordered (o : Origin) :
    (tables o).Pairwise fun earlier later => later.name ∉ earlier.references := by
  cases o <;> decide

theorem references_subset (o : Origin) :
    ∀ t ∈ tables o, ∀ r ∈ t.references, r ∈ (tables o).map (·.name) := by
  cases o <;> decide

theorem hasName_eq_hasTable (h : ∀ u ∈ d, u.name.schema = defaultSchema) (name : String) :
    (catalogueOf d).hasName name = (catalogueOf d).hasTable name := by
  rw [Bool.eq_iff_iff]
  refine ⟨fun hname => ?_, hasName_of_hasTable⟩
  obtain ⟨q, hq, hname⟩ := hasName_iff.mp hname
  obtain ⟨u, hu, rfl⟩ := List.mem_map.mp hq
  have hdefault : inDefault name = u.name := by
    rw [inDefault, ← h u hu, ← hname]
  rw [hasTable_iff, hdefault]
  exact hq

/-! ## Upgrading -/

theorem hasTable_withTable_of_hasTable {t : Table} {name : String}
    (h : (catalogueOf d).hasTable name = true) :
    (catalogueOf (withTable ids d t)).hasTable name = true := by
  rw [hasTable_iff] at h ⊢
  rw [withTable]
  split_ifs
  · exact h
  · rw [catalogueOf_append]
    exact List.mem_append_left _ h

theorem withTable_oneSchema {t : Table} (h : ∀ u ∈ d, u.name.schema = defaultSchema) :
    ∀ u ∈ withTable ids d t, u.name.schema = defaultSchema := by
  rw [withTable]
  split_ifs
  · exact h
  · intro u hu
    rcases List.mem_append.mp hu with hu | hu
    · exact h u hu
    · obtain rfl := List.mem_singleton.mp hu
      rfl

theorem hasTable_withTable_self {t : Table} (h : ∀ u ∈ d, u.name.schema = defaultSchema) :
    (catalogueOf (withTable ids d t)).hasTable t.name = true := by
  rw [withTable, hasName_eq_hasTable h]
  split_ifs with hthere
  · exact hthere
  · rw [hasTable_iff, catalogueOf_append]
    exact List.mem_append_right _ (List.mem_singleton_self _)

/-- Tables can be created in an order in which none refers to a later one. -/
theorem performAll_createAll {ts : List Table}
    (ordered : ts.Pairwise fun earlier later => later.name ∉ earlier.references) :
    ∀ {d : Contents}, (∀ u ∈ d, u.name.schema = defaultSchema) →
      (∀ t ∈ ts, ∀ r ∈ t.references, (catalogueOf d).hasTable r = true ∨ r ∈ ts.map (·.name)) →
        performAll ids d (statementsOf (createAll (catalogueOf d) ts)) =
          .ok (ts.foldl (withTable ids) d) := by
  induction ts with
  | nil => exact fun _ _ => rfl
  | cons t rest ih =>
    intro d honeSchema htargets
    obtain ⟨hlater, hordered⟩ := List.pairwise_cons.mp ordered
    have hfirst : ∀ r ∈ t.references, r = t.name ∨ (catalogueOf d).hasTable r = true := by
      intro r hr
      rcases htargets t List.mem_cons_self r hr with hthere | hmem
      · exact .inr hthere
      · rcases List.mem_cons.mp hmem with rfl | hmem
        · exact .inl rfl
        · obtain ⟨u, hu, rfl⟩ := List.mem_map.mp hmem
          exact absurd hr (hlater u hu)
    rw [performAll_createAll_cons (performAll_passEvents hfirst),
      ih hordered (withTable_oneSchema honeSchema) ?_]
    · rfl
    · intro u hu r hr
      rcases htargets u (List.mem_cons_of_mem _ hu) r hr with hthere | hmem
      · exact .inl (hasTable_withTable_of_hasTable hthere)
      · rcases List.mem_cons.mp hmem with rfl | hmem
        · exact .inl (hasTable_withTable_self honeSchema)
        · exact .inr hmem

theorem upgrade_eq (h : ∀ u ∈ d, u.name.schema = defaultSchema) :
    upgrade ids d = .ok (d ++ ((tables .migration).filter fun t =>
      !(catalogueOf d).hasTable t.name).map (·.migrated ids)) := by
  have hreturns : upgrade ids d = .ok ((tables .migration).foldl (withTable ids) d) :=
    performAll_createAll (tables_ordered .migration) h
      fun t ht r hr => .inr (references_subset .migration t ht r hr)
  rw [foldl_withTable (nodup_tables .migration)] at hreturns
  simp only [hasName_eq_hasTable h] at hreturns
  exact hreturns

/-! ## Downgrading -/

theorem perform_dropTable {name : String} (there : (catalogueOf d).hasTable name = true)
    (unreferenced : ∀ u ∈ d, u.name ≠ inDefault name → inDefault name ∉ u.references) :
    perform ids d (.dropTable name) = .ok (d.filter (·.name != inDefault name)) := by
  rw [perform, if_neg (by simp [there]), if_neg]
  rintro ⟨u, hu, hne, hmem⟩
  exact unreferenced u hu hne hmem

/-- The later tables are referred to by no others, and by the first one as little. -/
theorem unreferenced_rest {t : Table} {rest : List Table}
    (later : ∀ t' ∈ rest, t'.name ∉ t.references)
    (keys : ∀ u ∈ d, u.name = inDefault t.name → u.references = t.references.map inDefault)
    (others : ∀ u ∈ d, (∀ t' ∈ t :: rest, u.name ≠ inDefault t'.name) →
      ∀ t' ∈ t :: rest, inDefault t'.name ∉ u.references) :
    ∀ u ∈ d, (∀ t' ∈ rest, u.name ≠ inDefault t'.name) →
      ∀ t' ∈ rest, inDefault t'.name ∉ u.references := by
  intro u hu hnone t' ht'
  by_cases hfirst : u.name = inDefault t.name
  · rw [keys u hu hfirst, List.mem_map_of_injective inDefault_injective]
    exact later t' ht'
  · exact others u hu (List.forall_mem_cons.mpr ⟨hfirst, hnone⟩) t' (List.mem_cons_of_mem _ ht')

theorem hasTable_filter {name : String} {ts : List Table} (h : name ∉ ts.map (·.name))
    (there : (catalogueOf d).hasTable name = true) :
    (catalogueOf (d.filter fun u => decide (∀ t ∈ ts, u.name ≠ inDefault t.name))).hasTable name =
      true := by
  obtain ⟨u, hu, hname⟩ := List.mem_map.mp (hasTable_iff.mp there)
  refine hasTable_iff.mpr (List.mem_map.mpr ⟨u, List.mem_filter.mpr ⟨hu, ?_⟩, hname⟩)
  rw [decide_eq_true_iff]
  intro t ht hsame
  exact h (List.mem_map.mpr ⟨t, ht, inDefault_injective (hsame.symm.trans hname)⟩)

/-- Tables can be dropped backwards if none refers to a later one and no others refer to them. -/
theorem performAll_dropTables {ts : List Table} (distinct : (ts.map (·.name)).Nodup)
    (ordered : ts.Pairwise fun earlier later => later.name ∉ earlier.references)
    (there : ∀ t ∈ ts, (catalogueOf d).hasTable t.name = true)
    (keys : ∀ u ∈ d, ∀ t ∈ ts, u.name = inDefault t.name →
      u.references = t.references.map inDefault)
    (others : ∀ u ∈ d, (∀ t ∈ ts, u.name ≠ inDefault t.name) →
      ∀ t ∈ ts, inDefault t.name ∉ u.references) :
    performAll ids d (ts.map fun t => Statement.dropTable t.name).reverse =
      .ok (d.filter fun u => decide (∀ t ∈ ts, u.name ≠ inDefault t.name)) := by
  induction ts with
  | nil => simp [performAll]
  | cons t rest ih =>
    obtain ⟨hnew, hdistinct⟩ := List.nodup_cons.mp distinct
    obtain ⟨hlater, hordered⟩ := List.pairwise_cons.mp ordered
    rw [List.forall_mem_cons] at there
    have hrest := ih hdistinct hordered there.2
      (fun u hu t' ht' => keys u hu t' (List.mem_cons_of_mem _ ht'))
      (unreferenced_rest hlater (fun u hu => keys u hu t List.mem_cons_self) others)
    rw [List.map_cons, List.reverse_cons, performAll_append, hrest, ok_bind]
    show (perform ids _ (.dropTable t.name) >>= Except.ok) = _
    rw [perform_dropTable (hasTable_filter hnew there.1), ok_bind, List.filter_filter]
    · congr 1
      refine List.filter_congr fun u _ => ?_
      rw [Bool.eq_iff_iff, Bool.and_eq_true, bne_iff_ne, decide_eq_true_iff, decide_eq_true_iff,
        List.forall_mem_cons]
    · intro u hu hne
      obtain ⟨hu, hnone⟩ := List.mem_filter.mp hu
      refine others u hu ?_ t List.mem_cons_self
      exact List.forall_mem_cons.mpr ⟨hne, of_decide_eq_true hnone⟩

/-- A downgrade drops every table whose name is taken. -/
theorem statementsOf_dropAll {names : List String} (distinct : names.Nodup) :
    ∀ {c : Catalogue}, (∀ name ∈ names, c.hasName name = true) →
      statementsOf (dropAll c names) = names.map .dropTable := by
  induction names with
  | nil => exact fun _ => rfl
  | cons name rest ih =>
    intro c there
    obtain ⟨hnew, hdistinct⟩ := List.nodup_cons.mp distinct
    rw [List.forall_mem_cons] at there
    rw [dropAll, if_pos there.1, statementsOf_append, ih hdistinct]
    · rfl
    · intro other hother
      obtain ⟨q, hq, hname⟩ := hasName_iff.mp (there.2 other hother)
      refine hasName_iff.mpr ⟨q, List.mem_filter.mpr ⟨hq, ?_⟩, hname⟩
      rw [bne_iff_ne]
      intro hsame
      exact hnew (by rwa [← hname, hsame] at hother)

/-- A table whose name is taken is not created again. -/
theorem statementsOf_createAll_of_hasName {c : Catalogue} : ∀ {ts : List Table},
    (∀ t ∈ ts, c.hasName t.name = true) → statementsOf (createAll c ts) = [] := by
  intro ts
  induction ts with
  | nil => exact fun _ => rfl
  | cons t rest ih =>
    intro there
    rw [List.forall_mem_cons] at there
    rw [createAll, passEvents_of_hasName there.1, statementsOf_append]
    exact ih there.2

/-- Parameters are inserted only along with their table. -/
theorem exists_insert_iff {ts : List Table} : ∀ {c : Catalogue},
    (∃ parameters, .insertParameters parameters ∈ statementsOf (createAll c ts)) ↔
      ∃ t, t.name = parameterTable ∧ .createTable t ∈ statementsOf (createAll c ts) := by
  induction ts with
  | nil => simp [createAll, statementsOf]
  | cons t rest ih =>
    intro c
    have hone : (∃ parameters, .insertParameters parameters ∈ statementsOf (passEvents c t)) ↔
        ∃ u, u.name = parameterTable ∧ .createTable u ∈ statementsOf (passEvents c t) := by
      by_cases htaken : c.hasName t.name = true
      · rw [passEvents_of_hasName htaken]
        simp [statementsOf]
      · rw [statementsOf_passEvents (by simpa using htaken), createStatements_eq]
        by_cases hparameters : t.name = parameterTable
        · rw [if_pos hparameters]
          exact iff_of_true ⟨standardParameters, by simp⟩ ⟨t, hparameters, by simp⟩
        · rw [if_neg hparameters, List.append_nil]
          constructor
          · rintro ⟨parameters, h⟩
            simp at h
          · rintro ⟨u, hname, h⟩
            obtain rfl : u = t := by simpa using h
            exact absurd hname hparameters
    simp only [statementsOf_createAll_cons, List.mem_append, exists_or, and_or_left, hone, ih]

/-! ## The round trip -/

/-- What an upgrade does. -/
structure UpgradesTo (ids : Nat → String) (d d' : Contents) : Prop where
  returns : upgrade ids d = .ok d'
  /-- The missing tables are added; what was there stays as it is. -/
  adds : d' = d ++ ((tables .migration).filter fun t =>
    !(catalogueOf d).hasTable t.name).map (·.migrated ids)
  /-- The parameters are inserted if and only if their table is created. -/
  seeds : (∃ parameters, .insertParameters parameters ∈
      statementsOf (upgradeEvents (catalogueOf d))) ↔
    ∃ t, t.name = parameterTable ∧ .createTable t ∈ statementsOf (upgradeEvents (catalogueOf d))
  /-- When a table is created, every foreign key names the table itself or one that is there. -/
  targets : ∀ before t after,
    statementsOf (upgradeEvents (catalogueOf d)) = before ++ .createTable t :: after →
      ∃ mid, performAll ids d before = .ok mid ∧
        ∀ r ∈ t.references, r = t.name ∨ (catalogueOf mid).hasTable r = true

/-- What a downgrade does. -/
structure DowngradesTo (ids : Nat → String) (d d' : Contents) : Prop where
  returns : downgrade ids d = .ok d'
  drops : statementsOf (downgradeEvents (catalogueOf d)) = tableNames.reverse.map .dropTable
  /-- When a table is dropped, no other table refers to it. -/
  unreferenced : ∀ before name after,
    statementsOf (downgradeEvents (catalogueOf d)) = before ++ .dropTable name :: after →
      ∃ mid, performAll ids d before = .ok mid ∧
        ∀ u ∈ mid, u.name ≠ inDefault name → inDefault name ∉ u.references

section RoundTrip

variable {d' : Contents}

theorem eq_of_name_eq {t t' : Table} (ht : t ∈ tables .migration) (ht' : t' ∈ tables .migration)
    (h : t.name = t'.name) : t = t' :=
  List.inj_on_of_nodup_map (nodup_tables .migration) ht ht' h

/-- A table after an upgrade was there before or is one of the ten. -/
theorem mem_or_eq_migrated (h : upgrade ids d = .ok d') {u : StoredTable} (hu : u ∈ d') :
    u ∈ d ∨ ∃ t ∈ tables .migration, u = t.migrated ids := by
  rw [eq_of_upgrade h] at hu
  rcases List.mem_append.mp hu with hu | hu
  · exact .inl hu
  · obtain ⟨t, ht, rfl⟩ := List.mem_map.mp hu
    exact .inr ⟨t, (List.mem_filter.mp ht).1, rfl⟩

theorem partlyMigrated_of_upgrade (h : PartlyMigrated d) (hreturns : upgrade ids d = .ok d') :
    PartlyMigrated d' := by
  constructor
  · intro u hu
    rcases mem_or_eq_migrated hreturns hu with hu | ⟨t, ht, rfl⟩
    · exact h.oneSchema u hu
    · rfl
  · intro u hu t ht hname
    rcases mem_or_eq_migrated hreturns hu with hu | ⟨t', ht', rfl⟩
    · exact h.keys u hu t ht hname
    · rw [eq_of_name_eq ht' ht (inDefault_injective hname)]
      rfl
  · intro u hu hnone t ht
    rcases mem_or_eq_migrated hreturns hu with hu | ⟨t', ht', rfl⟩
    · exact h.others u hu hnone t ht
    · exact absurd rfl (hnone t' ht')

theorem hasTable_of_upgrade_oneSchema (h : PartlyMigrated d) (hreturns : upgrade ids d = .ok d')
    {t : Table} (ht : t ∈ tables .migration) : (catalogueOf d').hasTable t.name = true := by
  refine hasTable_of_upgrade hreturns ht ?_
  rw [hasName_eq_hasTable h.oneSchema]
  exact Bool.eq_false_or_eq_true _

/-- An upgrade adds none but the ten tables. -/
theorem otherTables_of_upgrade (h : upgrade ids d = .ok d') : otherTables d' = otherTables d := by
  rw [eq_of_upgrade h, otherTables, List.filter_append, otherTables, List.append_right_eq_self,
    List.filter_eq_nil_iff]
  intro u hu
  obtain ⟨t, ht, rfl⟩ := List.mem_map.mp hu
  rw [decide_eq_true_iff]
  exact fun hnone => hnone t (List.mem_filter.mp ht).1 rfl

theorem statementsOf_downgrade
    (there : ∀ t ∈ tables .migration, (catalogueOf d).hasTable t.name = true) :
    statementsOf (downgradeEvents (catalogueOf d)) = tableNames.reverse.map .dropTable := by
  refine statementsOf_dropAll (List.nodup_reverse.mpr (nodup_tables .migration)) ?_
  intro name hname
  obtain ⟨t, ht, rfl⟩ := List.mem_map.mp (List.mem_reverse.mp hname)
  exact hasName_of_hasTable (there t ht)

theorem downgrade_eq (h : PartlyMigrated d)
    (there : ∀ t ∈ tables .migration, (catalogueOf d).hasTable t.name = true) :
    downgrade ids d = .ok (otherTables d) := by
  have hstatements : tableNames.reverse.map Statement.dropTable =
      ((tables .migration).map fun t => Statement.dropTable t.name).reverse := by
    rw [tableNames, List.map_reverse, List.map_map]
    rfl
  rw [downgrade, statementsOf_downgrade there, hstatements]
  exact performAll_dropTables (nodup_tables .migration) (tables_ordered .migration) there h.keys
    h.others

/-- An upgrade of one schema creates what is missing and leaves the rest, a second one does nothing,
and a downgrade drops the ten tables and nothing else. -/
theorem upgrade_then_downgrade (ids : Nat → String) (h : PartlyMigrated d) :
    ∃ d', UpgradesTo ids d d' ∧ statementsOf (upgradeEvents (catalogueOf d')) = [] ∧
      DowngradesTo ids d' (otherTables d) := by
  have hreturns : upgrade ids d = .ok _ := upgrade_eq h.oneSchema
  generalize hadded : ((tables .migration).filter fun t =>
    !(catalogueOf d).hasTable t.name).map (·.migrated ids) = added at hreturns
  have hthere : ∀ t ∈ tables .migration, (catalogueOf (d ++ added)).hasTable t.name = true :=
    fun t ht => hasTable_of_upgrade_oneSchema h hreturns ht
  have hdowngrade : downgrade ids (d ++ added) = .ok (otherTables d) := by
    rw [downgrade_eq (partlyMigrated_of_upgrade h hreturns) hthere,
      otherTables_of_upgrade hreturns]
  refine ⟨d ++ added, ⟨hreturns, by rw [hadded], exists_insert_iff, ?_⟩, ?_, hdowngrade,
    statementsOf_downgrade hthere, ?_⟩
  · intro before t after heq
    rw [upgrade, heq] at hreturns
    obtain ⟨mid, next, hbefore, hcreate⟩ := exists_of_performAll hreturns
    exact ⟨mid, hbefore, targets_of_createTable hcreate⟩
  · exact statementsOf_createAll_of_hasName fun t ht => hasName_of_hasTable (hthere t ht)
  · intro before name after heq
    rw [downgrade, heq] at hdowngrade
    obtain ⟨mid, next, hbefore, hdrop⟩ := exists_of_performAll hdowngrade
    exact ⟨mid, hbefore, unreferenced_of_dropTable hdrop⟩

end RoundTrip

/-- A database that was migrated by half and has a table of its own. -/
def halfMigrated : Contents := [
  ⟨inDefault "alembic_version", [], [[("version_num", "001_tender_markup_schema")]]⟩,
  ⟨inDefault "roles", [], [[("id", "1"), ("name", "Admin")]]⟩,
  ⟨inDefault "users", [inDefault "roles"], [[("id", "u-1"), ("role_id", "1")]]⟩,
  ⟨inDefault "markup_parameters", [], []⟩]

theorem upgrade_then_downgrade_halfMigrated :
    PartlyMigrated halfMigrated ∧
      ∃ d', UpgradesTo toString halfMigrated d' ∧
        statementsOf (upgradeEvents (catalogueOf d')) = [] ∧
        DowngradesTo toString d' (otherTables halfMigrated) := by
  have h : PartlyMigrated halfMigrated :=
    ⟨by decide +kernel, by decide +kernel, by decide +kernel⟩
  exact ⟨h, upgrade_then_downgrade toString h⟩

end Schema
end TenderPricing
