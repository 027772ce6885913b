import VerbForms.Store.Migration

/-!
# What the migration leads to

A step of a migration leaves the layout as it is or adds one index to it, so that nothing that was there is
lost (`Keeps`). An upgrade that succeeds is meant to leave a unique index on the key, and it does so exactly
where the key can be indexed (`Layout.CanIndexKey`): to a table without a column for the key it adds an index
that covers no column, whose name is then taken.
-/

namespace VerbForms.Store

namespace Layout

variable {table after : Layout}

/-! ### Tables -/

/-- The table has a unique index on exactly the key. -/
def IndexesKey (table : Layout) : Prop :=
  ∃ index ∈ table.indexes, index.columns = [keyColumn] ∧ index.unique = true

/-- The table has a column for the key. -/
def HasKey (table : Layout) : Prop := ∃ column ∈ table.columns, column.name = keyColumn

/-- No column is taken for that of the key by mistake: none differs from it only in capitals. -/
def TellsKey (table : Layout) : Prop :=
  ∀ column ∈ table.columns, sameName keyColumn column.name = true → column.name = keyColumn

/-- The name of the index on the key is in use. -/
def NameTaken (table : Layout) : Prop := ∃ index ∈ table.indexes, sameName keyIndexName index.name = true

/-- There is a unique index on the key, or there can be one. -/
def CanIndexKey (table : Layout) : Prop := table.HasKey ∨ table.IndexesKey

instance (table : Layout) : Decidable table.IndexesKey := inferInstanceAs (Decidable (∃ index ∈ table.indexes, _))

instance (table : Layout) : Decidable table.HasKey := inferInstanceAs (Decidable (∃ column ∈ table.columns, _))

instance (table : Layout) : Decidable table.TellsKey := inferInstanceAs (Decidable (∀ column ∈ table.columns, _))

instance (table : Layout) : Decidable table.NameTaken := inferInstanceAs (Decidable (∃ index ∈ table.indexes, _))

instance (table : Layout) : Decidable table.CanIndexKey := inferInstanceAs (Decidable (_ ∨ _))

/-- A table with the same columns, and with all indexes and perhaps more. -/
structure Grows (table after : Layout) : Prop where
  columns : after.columns = table.columns
  indexes : table.indexes <+: after.indexes

theorem Grows.refl (table : Layout) : Grows table table := ⟨rfl, List.prefix_rfl⟩

theorem Grows.trans {last : Layout} (h : Grows table after) (more : Grows after last) : Grows table last :=
  ⟨more.columns.trans h.columns, h.indexes.trans more.indexes⟩

theorem hasKeyIndex_iff : table.hasKeyIndex = true ↔ table.IndexesKey := by
  simp [hasKeyIndex, IndexesKey]

/-! ### The index on the key -/

/-- The columns that the index on the key covers. -/
def keyColumns (table : Layout) : List String :=
  (table.columns.find? (sameName keyColumn ·.name)).toList.map (·.name)

/-- The table with an index for the key. -/
def withKeyIndex (table : Layout) : Layout :=
  { table with indexes := table.indexes ++ [⟨keyIndexName, table.keyColumns, true⟩] }

theorem addKeyIndex_eq (table : Layout) :
    table.addKeyIndex = if table.NameTaken then .error .unavailable else .ok table.withKeyIndex := by
  have taken : table.indexes.any (sameName keyIndexName ·.name) = true ↔ table.NameTaken := List.any_eq_true
  simp only [addKeyIndex, taken]
  rfl

/-- The index on the key covers the key where there is a column for it. -/
theorem keyColumns_eq_iff (tells : table.TellsKey) : table.keyColumns = [keyColumn] ↔ table.HasKey := by
  rw [keyColumns]
  cases found : table.columns.find? (sameName keyColumn ·.name) with
  | none =>
    refine iff_of_false (by simp) fun ⟨column, mem, named⟩ ↦ List.find?_eq_none.mp found column mem ?_
    rw [named]
    exact beq_self_eq_true _
  | some column =>
    have mem := List.mem_of_find?_eq_some found
    have taken := List.find?_some found
    have named := tells column mem taken
    exact iff_of_true (congrArg (fun name ↦ [name]) named) ⟨column, mem, named⟩

theorem indexesKey_withKeyIndex (tells : table.TellsKey) : table.withKeyIndex.IndexesKey ↔ table.CanIndexKey := by
  rw [CanIndexKey, ← keyColumns_eq_iff tells, or_comm]
  simp [IndexesKey, withKeyIndex, or_and_right, exists_or]

theorem canIndexKey_withKeyIndex (tells : table.TellsKey) :
    table.withKeyIndex.CanIndexKey ↔ table.CanIndexKey := by
  rw [CanIndexKey, indexesKey_withKeyIndex tells]
  exact or_iff_right_of_imp .inl

theorem grows_withKeyIndex (table : Layout) : Grows table table.withKeyIndex := ⟨rfl, List.prefix_append _ _⟩

theorem nameTaken_withKeyIndex (table : Layout) : table.withKeyIndex.NameTaken :=
  ⟨⟨keyIndexName, table.keyColumns, true⟩, List.mem_append_right _ List.mem_cons_self, beq_self_eq_true _⟩

end Layout

variable {layout start : Option Layout} {table after : Layout}

/-! ### Steps -/

/-- What an upgrade starts from: the table that is there, or a fresh one. -/
def begun (layout : Option Layout) : Layout := layout.getD freshLayout

/-- An upgrade leaves a table whose key is indexed, and adds the index to another one. -/
theorem upgrade_eq (layout : Option Layout) : upgrade layout =
    if (begun layout).IndexesKey then .ok (begun layout)
    else if (begun layout).NameTaken then .error .unavailable
    else .ok (begun layout).withKeyIndex := by
  have both : upgrade layout =
      if (begun layout).hasKeyIndex then .ok (begun layout) else (begun layout).addKeyIndex := by
    cases layout <;> rfl
  simp only [both, Layout.hasKeyIndex_iff, Layout.addKeyIndex_eq]

theorem upgrade_eq_ok_iff : upgrade layout = .ok after ↔
    (begun layout).IndexesKey ∧ begun layout = after ∨
      ¬ (begun layout).IndexesKey ∧ ¬ (begun layout).NameTaken ∧ (begun layout).withKeyIndex = after := by
  rw [upgrade_eq]
  split
  · next indexed => simp [indexed]
  · next bare => split <;> simp [*]

theorem upgrade_eq_error_iff {e : StoreError} : upgrade layout = .error e ↔
    .unavailable = e ∧ ∃ table, layout = some table ∧ ¬ table.IndexesKey ∧ table.NameTaken := by
  rw [upgrade_eq]
  cases layout with
  | none => simp [begun, freshLayout, Layout.IndexesKey, Layout.NameTaken]
  | some table =>
    rw [begun, Option.getD_some]
    split
    · next indexed => simp [indexed]
    · next bare => split <;> simp [*]

/-- A table stays as it is if its key is indexed, and only then. -/
theorem upgrade_eq_self_iff : upgrade (some table) = .ok table ↔ table.IndexesKey := by
  refine upgrade_eq_ok_iff.trans ⟨?_, fun indexed ↦ .inl ⟨indexed, rfl⟩⟩
  rintro (⟨indexed, -⟩ | ⟨-, -, same⟩)
  · exact indexed
  · have longer := congrArg (·.indexes.length) same
    simp [begun, Layout.withKeyIndex] at longer

/-- An upgrade that succeeds loses nothing, and it leaves an index on the key where the key can be indexed. -/
theorem upgrade_spec (tells : (begun layout).TellsKey) (done : upgrade layout = .ok after) :
    (begun layout).Grows after ∧ after.TellsKey ∧ (after.CanIndexKey ↔ (begun layout).CanIndexKey) ∧
      (after.IndexesKey ↔ (begun layout).CanIndexKey) ∧ (after.IndexesKey ∨ after.NameTaken) := by
  rcases upgrade_eq_ok_iff.mp done with ⟨indexed, rfl⟩ | ⟨-, -, rfl⟩
  · exact ⟨.refl _, tells, .rfl, iff_of_true indexed (.inr indexed), .inl indexed⟩
  · exact ⟨(begun layout).grows_withKeyIndex, tells, Layout.canIndexKey_withKeyIndex tells,
      Layout.indexesKey_withKeyIndex tells, .inr (begun layout).nameTaken_withKeyIndex⟩

/-- The layout has lost nothing. -/
def Keeps (layout after : Option Layout) : Prop :=
  ∀ table, layout = some table → ∃ grown, after = some grown ∧ table.Grows grown

theorem Keeps.refl (layout : Option Layout) : Keeps layout layout := fun table here ↦ ⟨table, here, .refl table⟩

theorem Keeps.trans {middle after : Option Layout} (h : Keeps layout middle) (more : Keeps middle after) :
    Keeps layout after := by
  intro table here
  obtain ⟨grown, found, grows⟩ := h table here
  obtain ⟨last, found', grows'⟩ := more grown found
  exact ⟨last, found', grows.trans grows'⟩

theorem keeps_some (grows : (begun layout).Grows after) : Keeps layout (some after) := by
  rintro table rfl
  exact ⟨after, rfl, grows⟩

/-- A step fails and changes nothing, or it is an upgrade that succeeds. -/
theorem migrate_cases (layout : Option Layout) (step : MigrationStep) :
    (∃ e, migrate layout step = (.error e, layout)) ∨
      ∃ after, step = .upgrade ∧ upgrade layout = .ok after ∧ migrate layout step = (.ok (), some after) := by
  cases step with
  | downgrade => exact .inl ⟨.forwardOnly, rfl⟩
  | upgrade =>
    rw [migrate]
    cases upgrade layout with
    | error e => exact .inl ⟨.store e, rfl⟩
    | ok after => exact .inr ⟨after, rfl, rfl, rfl⟩

theorem migrate_upgrade_eq_ok_iff :
    migrate layout .upgrade = (.ok (), some after) ↔ upgrade layout = .ok after := by
  rw [migrate]
  cases upgrade layout <;> simp

theorem migrate_upgrade_eq_error_iff {e : MigrationError} :
    (migrate layout .upgrade).1 = .error e ↔ ∃ reason, .store reason = e ∧ upgrade layout = .error reason := by
  rw [migrate]
  cases upgrade layout <;> simp [and_comm]

/-! ### Sequences of steps -/

/-- The layout after some steps. -/
def migrateAll (layout : Option Layout) (steps : List MigrationStep) : Option Layout :=
  steps.foldl (fun layout step ↦ (migrate layout step).2) layout

/-- What a layout has come to: nothing is lost, and its key can be indexed if it could. -/
structure Descends (start layout : Option Layout) : Prop where
  keeps : Keeps start layout
  tells : (begun layout).TellsKey
  can : (begun layout).CanIndexKey ↔ (begun start).CanIndexKey

theorem Descends.step (h : Descends start layout) (step : MigrationStep) :
    Descends start (migrate layout step).2 := by
  rcases migrate_cases layout step with ⟨e, failed⟩ | ⟨after, -, done, succeeded⟩
  · rw [failed]
    exact h
  · obtain ⟨grows, tells, can, -⟩ := upgrade_spec h.tells done
    rw [succeeded]
    exact ⟨h.keeps.trans (keeps_some grows), tells, can.trans h.can⟩

theorem Descends.run (h : Descends start layout) (steps : List MigrationStep) :
    Descends start (migrateAll layout steps) := by
  induction steps generalizing layout with
  | nil => exact h
  | cons step rest ih => exact ih (h.step step)

theorem canIndexKey_begun :
    (begun start).CanIndexKey ↔ ∀ table, start = some table → table.CanIndexKey := by
  cases start with
  | none => exact iff_of_true (by decide) fun _ ↦ nofun
  | some table => simp [begun]

theorem descends_start (tells : ∀ table, start = some table → table.TellsKey) : Descends start start := by
  refine ⟨.refl start, ?_, .rfl⟩
  cases start with
  | none => decide +kernel
  | some table => exact tells table rfl

/-- **An upgrade that succeeds indexes the key exactly where the key can be indexed.** In any sequence of steps a
step that fails leaves the layout as it was: every downgrade does, and an upgrade of a table without an index on
the key that has its name in use. An upgrade that succeeds loses none of the columns and indexes. But it leaves a
unique index on exactly the key, so that a further upgrade succeeds and changes nothing, if and only if a table
that was there at the start has a column for the key or such an index already; otherwise the further upgrade
fails. -/
theorem upgrade_indexes_key_iff (tells : ∀ table, start = some table → table.TellsKey)
    (steps : List MigrationStep) :
    let current := migrateAll start steps
    (∀ step e, (migrate current step).1 = .error e → (migrate current step).2 = current) ∧
    (migrate current .downgrade).1 = .error .forwardOnly ∧
    (∀ e, (migrate current .upgrade).1 = .error e ↔
      .store .unavailable = e ∧ ∃ table, current = some table ∧ ¬ table.IndexesKey ∧ table.NameTaken) ∧
    ∀ after, migrate current .upgrade = (.ok (), after) →
      ∃ table, after = some table ∧ Keeps start after ∧ Keeps current after ∧
        (table.IndexesKey ↔ ∀ given, start = some given → given.CanIndexKey) ∧
        (migrate after .upgrade = (.ok (), after) ↔ table.IndexesKey) ∧
        ((migrate after .upgrade).1 = .error (.store .unavailable) ↔ ¬ table.IndexesKey) := by
  intro current
  have descends : Descends start current := (descends_start tells).run steps
  refine ⟨fun step e failed ↦ ?_, rfl, fun e ↦ ?_, fun after succeeded ↦ ?_⟩
  · rcases migrate_cases current step with ⟨_, same⟩ | ⟨_, -, -, same⟩
    · rw [same]
    · rw [same] at failed
      cases failed
  · rw [migrate_upgrade_eq_error_iff]
    simp only [upgrade_eq_error_iff]
    constructor
    · rintro ⟨_, rfl, rfl, taken⟩
      exact ⟨rfl, taken⟩
    · rintro ⟨rfl, taken⟩
      exact ⟨_, rfl, rfl, taken⟩
  · rcases migrate_cases current .upgrade with ⟨_, same⟩ | ⟨table, -, done, same⟩
    · rw [same] at succeeded
      cases succeeded
    · obtain rfl : some table = after := congrArg Prod.snd (same.symm.trans succeeded)
      obtain ⟨grows, -, -, indexed, taken⟩ := upgrade_spec descends.tells done
      have keeps := keeps_some grows
      refine ⟨table, rfl, descends.keeps.trans keeps, keeps, ?_, ?_, ?_⟩
      · exact indexed.trans (descends.can.trans canIndexKey_begun)
      · exact migrate_upgrade_eq_ok_iff.trans upgrade_eq_self_iff
      · rw [migrate_upgrade_eq_error_iff]
        simpa [upgrade_eq_error_iff] using taken.resolve_left

/-- A table without a column for the key. -/
def keyless : Layout := ⟨[⟨"id", "INTEGER", true, false⟩], []⟩

/-- A table with an index of two columns, and with one on the key that is not unique. -/
def halfIndexed : Layout :=
  ⟨[⟨"id", "INTEGER", false, true⟩, ⟨"key", "VARCHAR(1000)", false, false⟩],
    [⟨"pair", ["key", "id"], true⟩, ⟨"plain", ["key"], false⟩]⟩

/-- A table with other indexes gets that on the key, which is then kept. -/
theorem half_indexed_is_completed :
    (∀ table, some halfIndexed = some table → table.TellsKey) ∧
    ∃ table, migrate (migrateAll (some halfIndexed) [.downgrade]) .upgrade = (.ok (), some table) ∧
      Keeps (some halfIndexed) (some table) ∧ table.IndexesKey ∧
      migrate (some table) .upgrade = (.ok (), some table) := by
  have tells : ∀ table, some halfIndexed = some table → table.TellsKey := by
    rintro table ⟨⟩
    decide +kernel
  have can : ∀ given, some halfIndexed = some given → given.CanIndexKey := by
    rintro given ⟨⟩
    decide
  have done : upgrade (some halfIndexed) = .ok halfIndexed.withKeyIndex :=
    upgrade_eq_ok_iff.mpr (.inr ⟨by decide, by decide +kernel, rfl⟩)
  have succeeded := migrate_upgrade_eq_ok_iff.mpr done
  obtain ⟨-, -, -, upgrades⟩ := upgrade_indexes_key_iff tells [.downgrade]
  obtain ⟨table, same, keeps, -, indexed, again, -⟩ := upgrades _ succeeded
  rw [same] at keeps again succeeded
  exact ⟨tells, table, succeeded, keeps, indexed.mpr can, again.mpr (indexed.mpr can)⟩

/-- **Not every upgrade that succeeds leaves an index on the key**, and not every one can be repeated. -/
theorem exists_upgrade_without_key_index :
    ∃ start table, start.TellsKey ∧ migrate (some start) .upgrade = (.ok (), some table) ∧ ¬ table.IndexesKey ∧
      (migrate (some table) .upgrade).1 = .error (.store .unavailable) := by
  have done : upgrade (some keyless) = .ok keyless.withKeyIndex :=
    upgrade_eq_ok_iff.mpr (.inr ⟨by decide, by decide, rfl⟩)
  have bare : ¬ keyless.withKeyIndex.IndexesKey := by decide +kernel
  have refused : upgrade (some keyless.withKeyIndex) = .error .unavailable :=
    upgrade_eq_error_iff.mpr ⟨rfl, _, rfl, bare, keyless.nameTaken_withKeyIndex⟩
  exact ⟨keyless, keyless.withKeyIndex, by decide +kernel, migrate_upgrade_eq_ok_iff.mpr done, bare,
    migrate_upgrade_eq_error_iff.mpr ⟨.unavailable, rfl, refused⟩⟩

end VerbForms.Store
