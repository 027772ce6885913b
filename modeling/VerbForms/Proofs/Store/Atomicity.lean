import VerbForms.Proofs.Store.Refinement

/-!
# Sessions take effect as a whole or not at all

A session that fails leaves the table as it was. After one that succeeds each row has the value that it
was set to last, and the added rows stand behind the others, numbered on (`sessions_all_or_nothing`).
Which updates find a row is told from the order of the actions alone (`foundUpdates`): those of a key in
the table, or of one that was added before the last flush.
-/

namespace VerbForms.Store

variable {table : Table} {key value : String} {entries : List (String × String)}
  {updates later : List (String × Option String)}

/-! ### Updates -/

/-- What a key was set to last, if it was set: a value or none. -/
def lastSet? (updates : List (String × Option String)) (key : String) : Option (Option String) :=
  ((updates.filter (·.1 = key)).getLast?).map Prod.snd

theorem lastSet?_append (updates later : List (String × Option String)) (key : String) :
    lastSet? (updates ++ later) key = (lastSet? later key).or (lastSet? updates key) := by
  rw [lastSet?, List.filter_append, List.getLast?_append, lastSet?, lastSet?]
  cases (later.filter (·.1 = key)).getLast? <;> rfl

theorem lastSet?_singleton (entry : String × Option String) (key : String) :
    lastSet? [entry] key = if entry.1 = key then some entry.2 else none := by
  by_cases same : entry.1 = key <;> simp [lastSet?, same]

theorem lastSet?_eq_none (unset : ∀ entry ∈ updates, entry.1 ≠ key) : lastSet? updates key = none := by
  rw [lastSet?, List.filter_eq_nil_iff.mpr fun entry mem ↦ by simpa using unset entry mem]
  rfl

theorem mem_of_lastSet? {given : Option String} (found : lastSet? updates key = some given) :
    (key, given) ∈ updates := by
  obtain ⟨entry, last, rfl⟩ := Option.map_eq_some_iff.mp found
  obtain ⟨mem, same⟩ := List.mem_filter.mp (List.mem_of_getLast? last)
  obtain rfl : entry.1 = key := by simpa using same
  exact mem

/-- Where keys are distinct, a key is set once. -/
theorem lastSet?_eq_get? (distinct : (Assoc.keys updates).Nodup) (key : String) :
    lastSet? updates key = Assoc.get? updates key := by
  induction updates with
  | nil => rfl
  | cons entry rest ih =>
    have split := List.nodup_cons.mp distinct
    rw [← List.singleton_append, lastSet?_append, ih split.2, lastSet?_singleton,
      List.singleton_append, Assoc.get?]
    by_cases same : entry.1 = key
    · have absent : Assoc.get? rest key = none :=
        (Assoc.get?_eq_none_iff rest key).mpr (same ▸ split.1)
      rw [if_pos same, if_pos same, absent]
      rfl
    · rw [if_neg same, if_neg same, Option.or_none]

/-- Keys that are set get a value in the end. -/
def Valued (updates : List (String × Option String)) : Prop := ∀ key, lastSet? updates key ≠ some none

theorem valued_of_forall (all : ∀ entry ∈ updates, entry.2 ≠ none) : Valued updates :=
  fun _ found ↦ all _ (mem_of_lastSet? found) rfl

/-- The updates leave each key with the same value. -/
def SameSet (updates later : List (String × Option String)) : Prop :=
  ∀ key, lastSet? updates key = lastSet? later key

theorem SameSet.valued (h : SameSet updates later) (valued : Valued updates) : Valued later :=
  fun key ↦ h key ▸ valued key

theorem Valued.append (h : Valued updates) (more : Valued later) : Valued (updates ++ later) := by
  intro key
  rw [lastSet?_append]
  cases set : lastSet? later key with
  | none => exact h key
  | some given =>
    rw [Option.some_or, ← set]
    exact more key

/-- An update that replaces an earlier one of its key has the effect of one that follows it. -/
theorem sameSet_put (distinct : (Assoc.keys updates).Nodup) (key : String) (given : Option String)
    (later : List (String × Option String)) :
    SameSet (Assoc.put updates key given ++ later) (updates ++ (key, given) :: later) := by
  intro other
  have put : lastSet? (Assoc.put updates key given) other =
      lastSet? (updates ++ [(key, given)]) other := by
    rw [lastSet?_eq_get? (Assoc.nodup_keys_put distinct key given), lastSet?_append,
      lastSet?_eq_get? distinct, lastSet?_singleton]
    by_cases same : key = other
    · rw [if_pos same, ← same, Assoc.get?_put_self]
      rfl
    · rw [if_neg same, Assoc.get?_put_of_ne same]
      rfl
  rw [lastSet?_append, put, ← lastSet?_append, List.append_assoc, List.singleton_append]

namespace Table

/-- The row with the value that its key was set to last. -/
def settled (updates : List (String × Option String)) (row : Row) : Row :=
  match lastSet? updates row.key with
  | some (some value) => { row with value }
  | _ => row

/-- Each row has the value that its key was set to last. -/
def withUpdates (table : Table) (updates : List (String × Option String)) : Table :=
  table.map (settled updates)

theorem key_settled (updates : List (String × Option String)) (row : Row) :
    (settled updates row).key = row.key := by
  rw [settled]
  split <;> rfl

theorem number_settled (updates : List (String × Option String)) (row : Row) :
    (settled updates row).number = row.number := by
  rw [settled]
  split <;> rfl

theorem keys_withUpdates (table : Table) (updates : List (String × Option String)) :
    (table.withUpdates updates).map (·.key) = table.map (·.key) := by
  rw [withUpdates, List.map_map]
  exact List.map_congr_left fun row _ ↦ key_settled updates row

theorem nextNumber_withUpdates (table : Table) (updates : List (String × Option String)) :
    (table.withUpdates updates).nextNumber = table.nextNumber := by
  simp only [nextNumber, withUpdates, List.foldl_map, number_settled]

theorem withUpdates_of_sameSet (table : Table) (same : SameSet updates later) :
    table.withUpdates updates = table.withUpdates later :=
  List.map_congr_left fun row _ ↦ by rw [settled, settled, same]

/-- Later updates act on what earlier ones leave. -/
theorem withUpdates_append (table : Table) (updates : List (String × Option String))
    (valued : Valued later) :
    table.withUpdates (updates ++ later) = (table.withUpdates updates).withUpdates later := by
  rw [withUpdates, withUpdates, withUpdates, List.map_map]
  refine List.map_congr_left fun row _ ↦ ?_
  have given := valued row.key
  rw [Function.comp_apply, settled, lastSet?_append, settled, key_settled]
  cases set : lastSet? later row.key with
  | none => rw [Option.none_or]; rfl
  | some given' =>
    cases given' with
    | none => exact absurd set given
    | some value =>
      rw [Option.some_or, settled]
      dsimp only
      split <;> rfl

/-- Updates of other keys leave a table as it is. -/
theorem withUpdates_of_unset (unset : ∀ entry ∈ updates, entry.1 ∉ table.map (·.key)) :
    table.withUpdates updates = table := by
  refine (List.map_congr_left fun row mem ↦ ?_).trans (List.map_id table)
  have none : lastSet? updates row.key = none := lastSet?_eq_none fun entry isUpdate same ↦
    unset entry isUpdate (same ▸ List.mem_map_of_mem mem)
  rw [settled, none]
  rfl

theorem withUpdates_singleton (table : Table) (key value : String) :
    table.withUpdates [(key, some value)] = table.update key value := by
  refine List.map_congr_left fun row _ ↦ ?_
  rw [settled, lastSet?_singleton]
  by_cases same : row.key = key
  · rw [if_pos same.symm, if_pos same]
  · rw [if_neg fun other ↦ same other.symm, if_neg same]

end Table

/-! ### New rows -/

/-- Rows for entries, numbered from a number on. -/
def newRows (number : Nat) (entries : List (String × String)) : Table :=
  (entries.zipIdx number).map fun entry ↦ ⟨entry.2, entry.1.1, entry.1.2⟩

theorem newRows_append (number : Nat) (entries more : List (String × String)) :
    newRows number (entries ++ more) =
      newRows number entries ++ newRows (number + entries.length) more := by
  rw [newRows, List.zipIdx_append, List.map_append]
  rfl

theorem keys_newRows (number : Nat) (entries : List (String × String)) :
    (newRows number entries).map (·.key) = Assoc.keys entries := by
  induction entries generalizing number with
  | nil => rfl
  | cons entry rest ih => exact congrArg (List.cons entry.1) (ih (number + 1))

theorem numbering_newRows (number : Nat) (entries : List (String × String)) :
    Table.numbering (newRows number entries) = (Assoc.keys entries).zipIdx number := by
  induction entries generalizing number with
  | nil => rfl
  | cons entry rest ih => exact congrArg (List.cons (entry.1, number)) (ih (number + 1))

theorem nextNumber_append_newRows (table : Table) (entries : List (String × String)) :
    (table ++ newRows table.nextNumber entries).nextNumber = table.nextNumber + entries.length := by
  have numbers : Table.numbering (table ++ newRows table.nextNumber entries) =
      table.numbering ++ (Assoc.keys entries).zipIdx table.nextNumber := by
    rw [Table.numbering, List.map_append, ← numbering_newRows]
    rfl
  rw [Table.nextNumber_of_numbering numbers, Assoc.keys, List.length_map]

/-- Rows are added in two parts as they are all at once. -/
theorem append_newRows_append (table : Table) (entries more : List (String × String)) :
    table ++ newRows table.nextNumber (entries ++ more) =
      (table ++ newRows table.nextNumber entries) ++
        newRows (table ++ newRows table.nextNumber entries).nextNumber more := by
  rw [newRows_append, nextNumber_append_newRows, List.append_assoc]

/-! ### Flushes -/

/-- An entry with its key and its value. -/
def complete (entry : String × String) : Option String × Option String := (some entry.1, some entry.2)

theorem filterMap_fst_complete (entries : List (String × String)) :
    (entries.map complete).filterMap Prod.fst = Assoc.keys entries := by
  rw [List.filterMap_map, Assoc.keys, ← List.filterMap_eq_map]
  rfl

/-- Keys can be added to a table that has distinct keys: they are new and distinct. -/
def Addable (table : Table) (entries : List (String × String)) : Prop :=
  (table.map (·.key) ++ Assoc.keys entries).Nodup

theorem addable_nil (distinct : table.DistinctKeys) : Addable table [] := by
  rw [Addable]
  exact (List.append_nil _).symm ▸ distinct

/-- Keys are added in two parts as they are all at once. -/
theorem addable_append_iff {more : List (String × String)} {number : Nat} :
    Addable table (entries ++ more) ↔ Addable (table ++ newRows number entries) more := by
  rw [Addable, Addable, List.map_append, keys_newRows, Assoc.keys, List.map_append, ← List.append_assoc]
  rfl

/-- Keys that can be added leave the keys of the table distinct. -/
theorem Addable.distinct (h : Addable table entries) (number : Nat) :
    Table.DistinctKeys (table ++ newRows number entries) := by
  rwa [Table.DistinctKeys, List.map_append, keys_newRows]

theorem Addable.left {more : List (String × String)} (h : Addable table (entries ++ more)) :
    Addable table entries := by
  rw [Addable, Assoc.keys, List.map_append, ← List.append_assoc] at h
  exact (List.nodup_append.mp h).1

theorem Addable.withUpdates_iff : Addable (table.withUpdates updates) entries ↔ Addable table entries := by
  rw [Addable, Table.keys_withUpdates, Addable]

theorem Addable.not_mem (h : Addable table entries) (known : key ∈ table.map (·.key)) :
    key ∉ Assoc.keys entries :=
  fun mem ↦ (List.nodup_append.mp h).2.2 key known key mem rfl

/-- Set the value of a row, unless it is missing. -/
def setRow (table : Table) : String × Option String → Except StoreError Table
  | (key, some value) => .ok (table.update key value)
  | (_, none) => .error .integrity

/-- Add a row, unless its key or its value is missing. -/
def addRow (table : Table) : Option String × Option String → Except StoreError Table
  | (some key, some value) => table.insert key value
  | _ => .error .integrity

/-- A flush sets the values that wait, then adds the rows that wait. -/
theorem flush_eq (table : Table) (added : List (Option String × Option String))
    (updates : List (String × Option String)) :
    Session.flush ⟨some table, added, updates⟩ = do
      let table ← updates.foldlM setRow table
      let table ← added.foldlM addRow table
      return ⟨some table, [], []⟩ := by
  rw [Session.flush]
  split
  · next idle =>
    obtain ⟨noAdded, noUpdates⟩ := Bool.and_eq_true_iff.mp idle
    obtain rfl := List.isEmpty_iff.mp noAdded
    obtain rfl := List.isEmpty_iff.mp noUpdates
    rfl
  · refine congrArg₂ bind (congrArg (List.foldlM · table updates) ?_) (funext fun table ↦
      congrArg₂ bind (congrArg (List.foldlM · table added) ?_) rfl)
    · funext table entry
      obtain ⟨key, given⟩ := entry
      cases given <;> rfl
    · funext table entry
      obtain ⟨key, value⟩ := entry
      cases key with
      | none => rfl
      | some key => cases value <;> rfl

/-- Values can be set where none is missing. -/
theorem foldlM_setRow_eq_ok_iff {after : Table} :
    updates.foldlM setRow table = .ok after ↔
      (∀ entry ∈ updates, entry.2 ≠ none) ∧ after = table.withUpdates updates := by
  induction updates generalizing table with
  | nil =>
    rw [List.foldlM_nil, pure_eq_ok, Table.withUpdates_of_unset (List.forall_mem_nil _)]
    exact ⟨fun same ↦ ⟨List.forall_mem_nil _, same.symm⟩, fun same ↦ same.2.symm⟩
  | cons entry rest ih =>
    obtain ⟨key, given⟩ := entry
    rw [List.foldlM_cons, List.forall_mem_cons]
    cases given with
    | none => exact ⟨fun run ↦ (by cases run), fun given ↦ absurd rfl given.1.1⟩
    | some value =>
      have first (valued : ∀ entry ∈ rest, entry.2 ≠ none) :
          table.withUpdates ((key, some value) :: rest) = (table.update key value).withUpdates rest := by
        rw [← List.singleton_append, Table.withUpdates_append _ _ (valued_of_forall valued),
          Table.withUpdates_singleton]
      constructor
      · intro run
        obtain ⟨valued, same⟩ := ih.mp run
        exact ⟨⟨nofun, valued⟩, same.trans (first valued).symm⟩
      · rintro ⟨⟨-, valued⟩, same⟩
        exact ih.mpr ⟨valued, same.trans (first valued)⟩

/-- A row can be added if its key is new. -/
theorem insert_eq_ok_iff {after : Table} (distinct : table.DistinctKeys) :
    table.insert key value = .ok after ↔
      Addable table [(key, value)] ∧ after = table ++ newRows table.nextNumber [(key, value)] := by
  have fresh : Addable table [(key, value)] ↔ key ∉ table.map (·.key) := by
    rw [Addable, Assoc.keys, List.map_singleton, ← List.concat_eq_append, List.nodup_concat]
    exact and_iff_left distinct
  rw [fresh, ← Table.keys_entries, ← Table.isSome_find?_iff, Table.insert]
  split
  · next known => exact ⟨fun run ↦ (by cases run), fun fresh ↦ absurd known fresh.1⟩
  · next fresh => exact ⟨fun run ↦ ⟨fresh, (Except.ok.inj run).symm⟩, fun same ↦ by rw [same.2]; rfl⟩

/-- Rows can be added where nothing is missing and all keys are new. -/
theorem foldlM_addRow_eq_ok_iff {added : List (Option String × Option String)} {after : Table}
    (distinct : table.DistinctKeys) :
    added.foldlM addRow table = .ok after ↔
      ∃ entries, added = entries.map complete ∧ Addable table entries ∧
        after = table ++ newRows table.nextNumber entries := by
  induction added generalizing table with
  | nil =>
    rw [List.foldlM_nil, pure_eq_ok]
    constructor
    · rintro rfl
      exact ⟨[], rfl, addable_nil distinct, (List.append_nil _).symm⟩
    · rintro ⟨entries, none, -, rfl⟩
      obtain rfl := List.map_eq_nil_iff.mp none.symm
      exact (List.append_nil _).symm
  | cons entry rest ih =>
    rw [List.foldlM_cons, bind_eq_ok]
    constructor
    · rintro ⟨next, first, run⟩
      match entry, first with
      | (some key, some value), first =>
        obtain ⟨apart, rfl⟩ := (insert_eq_ok_iff distinct).mp first
        obtain ⟨entries, rfl, addable, rfl⟩ := (ih (apart.distinct _)).mp run
        exact ⟨(key, value) :: entries, rfl, addable_append_iff.mpr addable,
          (append_newRows_append table [(key, value)] entries).symm⟩
      | (none, _), first | (some _, none), first => cases first
    · rintro ⟨entries, same, addable, rfl⟩
      obtain ⟨⟨key, value⟩, entries, rfl, rfl, rfl⟩ := List.map_eq_cons_iff.mp same.symm
      have both : Addable table ([(key, value)] ++ entries) := addable
      refine ⟨_, (insert_eq_ok_iff distinct).mpr ⟨both.left, rfl⟩,
        (ih (both.left.distinct _)).mpr ⟨entries, rfl, ?_, ?_⟩⟩
      · exact addable_append_iff.mp both
      · exact append_newRows_append table [(key, value)] entries

/-- Updates that wait: each key once, and each for a row of the table. -/
structure Pending (table : Table) (updates : List (String × Option String)) : Prop where
  distinct : (Assoc.keys updates).Nodup
  known : ∀ entry ∈ updates, entry.1 ∈ table.map (·.key)

theorem pending_nil (table : Table) : Pending table [] := ⟨List.nodup_nil, List.forall_mem_nil _⟩

theorem Pending.put (h : Pending table updates) (known : key ∈ table.map (·.key)) (given : Option String) :
    Pending table (Assoc.put updates key given) where
  distinct := Assoc.nodup_keys_put h.distinct key given
  known entry mem := by
    rcases Assoc.mem_put mem with rfl | old
    · exact known
    · exact h.known entry old

/-- Updates that wait leave alone the rows that are added after them. -/
theorem Pending.withUpdates_append (h : Pending table updates) (addable : Addable table entries) (number : Nat) :
    Table.withUpdates (table ++ newRows number entries) updates =
      table.withUpdates updates ++ newRows number entries := by
  have untouched : Table.withUpdates (newRows number entries) updates = newRows number entries := by
    refine Table.withUpdates_of_unset fun entry mem ↦ ?_
    rw [keys_newRows]
    exact addable.not_mem (h.known entry mem)
  rw [Table.withUpdates, List.map_append]
  exact congrArg _ untouched

/-- **A flush** succeeds where no value is missing and all keys are new; then nothing waits any more. -/
theorem flush_eq_ok_iff {added : List (Option String × Option String)} {after : Session}
    (distinct : table.DistinctKeys) :
    Session.flush ⟨some table, added, updates⟩ = .ok after ↔
      (∀ entry ∈ updates, entry.2 ≠ none) ∧ ∃ entries, added = entries.map complete ∧
        Addable table entries ∧
        after = ⟨some (table.withUpdates updates ++ newRows table.nextNumber entries), [], []⟩ := by
  have distinct' : (table.withUpdates updates).DistinctKeys := by
    rwa [Table.DistinctKeys, Table.keys_withUpdates]
  rw [flush_eq, bind_eq_ok]
  constructor
  · rintro ⟨updated, set, run⟩
    obtain ⟨valued, rfl⟩ := foldlM_setRow_eq_ok_iff.mp set
    obtain ⟨full, add, same⟩ := bind_eq_ok.mp run
    obtain ⟨entries, rfl, addable, rfl⟩ := (foldlM_addRow_eq_ok_iff distinct').mp add
    rw [Table.nextNumber_withUpdates] at same
    exact ⟨valued, entries, rfl, Addable.withUpdates_iff.mp addable, (pure_eq_ok.mp same).symm⟩
  · rintro ⟨valued, entries, rfl, addable, rfl⟩
    refine ⟨_, foldlM_setRow_eq_ok_iff.mpr ⟨valued, rfl⟩, bind_eq_ok.mpr ⟨_, ?_, rfl⟩⟩
    refine (foldlM_addRow_eq_ok_iff distinct').mpr ⟨entries, rfl, Addable.withUpdates_iff.mpr addable, ?_⟩
    rw [Table.nextNumber_withUpdates]

/-! ### Sessions -/

/-- The entries that a block adds, in order. -/
def additions (block : List Action) : List (Option String × Option String) :=
  block.filterMap fun
    | .add key value => some (key, value)
    | _ => none

/-- The updates of a block that find a row, in order: their keys are in the table, or they have been
added and flushed before. -/
def foundUpdates (seen waiting : List String) : List Action → List (String × Option String)
  | [] => []
  | .add key _ :: rest => foundUpdates seen (waiting ++ key.toList) rest
  | .update key value :: rest =>
    (key.toList.filter (· ∈ seen)).map (·, value) ++ foundUpdates seen waiting rest
  | .flush :: rest => foundUpdates (seen ++ waiting) [] rest
  | .abort _ :: rest => foundUpdates seen waiting rest

theorem foundUpdates_update_of_mem {seen waiting : List String} {given : Option String}
    {rest : List Action} (known : key ∈ seen) :
    foundUpdates seen waiting (.update (some key) given :: rest) =
      (key, given) :: foundUpdates seen waiting rest := by
  rw [foundUpdates, Option.toList_some, List.filter_cons_of_pos (by simpa using known)]
  rfl

theorem foundUpdates_update_of_not_mem {seen waiting : List String} {place given : Option String}
    {rest : List Action} (unknown : ∀ key ∈ place, key ∉ seen) :
    foundUpdates seen waiting (.update place given :: rest) = foundUpdates seen waiting rest := by
  rw [foundUpdates, List.filter_eq_nil_iff.mpr]
  · rfl
  · intro key mem
    simpa using unknown key (Option.mem_toList.mp mem)

/-- Whether the action leaves the block with an error. -/
def Action.aborts : Action → Bool
  | .abort _ => true
  | _ => false

theorem mem_keys_of_find? {row : Row} (found : table.find? key = some row) :
    key ∈ table.map (·.key) ∧ row.key = key := by
  have same : row.key = key := by simpa using List.find?_some found
  exact ⟨same ▸ List.mem_map_of_mem (List.mem_of_find?_eq_some found), same⟩

theorem not_mem_keys_of_find? (absent : table.find? key = none) : key ∉ table.map (·.key) := by
  rw [← Table.keys_entries, ← Table.isSome_find?_iff, absent]
  exact Bool.false_ne_true

/-- The rest of a session: its actions, then the flush at its end. -/
def Session.finish (session : Session) (block : List Action) : Except SessionError Session := do
  let session ← block.foldlM Session.perform session
  session.flush.mapError SessionError.store

theorem Session.finish_cons (session : Session) (action : Action) (block : List Action) :
    session.finish (action :: block) = session.perform action >>= (·.finish block) := by
  rw [finish, List.foldlM_cons, bind_assoc]
  rfl

/-- **What a session that succeeds has done**, told from a moment within it. -/
theorem Session.finish_eq_ok {block : List Action} {added : List (Option String × Option String)}
    {after : Session} (distinct : table.DistinctKeys) (pending : Pending table updates)
    (run : Session.finish ⟨some table, added, updates⟩ block = .ok after) :
    (∀ action ∈ block, action.aborts = false) ∧
      ∃ entries, added ++ additions block = entries.map complete ∧ Addable table entries ∧
        Valued (updates ++ foundUpdates (table.map (·.key)) (added.filterMap Prod.fst) block) ∧
        after.table = some (Table.withUpdates (table ++ newRows table.nextNumber entries)
          (updates ++ foundUpdates (table.map (·.key)) (added.filterMap Prod.fst) block)) := by
  induction block generalizing table added updates with
  | nil =>
    obtain ⟨valued, entries, rfl, addable, rfl⟩ := (flush_eq_ok_iff distinct).mp (mapError_eq_ok.mp run)
    rw [foundUpdates, List.append_nil]
    refine ⟨List.forall_mem_nil _, entries, List.append_nil _, addable, valued_of_forall valued, ?_⟩
    rw [pending.withUpdates_append addable]
  | cons action rest ih =>
    rw [finish_cons, bind_eq_ok] at run
    obtain ⟨next, step, run⟩ := run
    cases action with
    | add key value =>
      cases step
      obtain ⟨goesOn, entries, same, addable, found⟩ := ih distinct pending run
      rw [List.filterMap_append] at found
      refine ⟨List.forall_mem_cons.mpr ⟨rfl, goesOn⟩, entries, ?_, addable, found⟩
      rw [← same, List.append_assoc]
      rfl
    | update key value =>
      rw [perform] at step
      dsimp only at step
      split at step
      · next row found =>
        cases step
        obtain ⟨place, rfl, rowFound⟩ := Option.bind_eq_some_iff.mp found
        obtain ⟨known, rowKey⟩ := mem_keys_of_find? rowFound
        rw [rowKey] at run
        obtain ⟨goesOn, entries, same, addable, valued, result⟩ :=
          ih distinct (pending.put known value) run
        have sameSet := sameSet_put pending.distinct place value
          (foundUpdates (table.map (·.key)) (added.filterMap Prod.fst) rest)
        rw [foundUpdates_update_of_mem known]
        refine ⟨List.forall_mem_cons.mpr ⟨rfl, goesOn⟩, entries, same, addable, sameSet.valued valued, ?_⟩
        rw [result, Table.withUpdates_of_sameSet _ sameSet]
      · next absent =>
        cases step
        have unknown : ∀ place ∈ key, place ∉ table.map (·.key) := by
          rintro place rfl
          exact not_mem_keys_of_find? absent
        rw [foundUpdates_update_of_not_mem unknown]
        obtain ⟨goesOn, found⟩ := ih distinct pending run
        exact ⟨List.forall_mem_cons.mpr ⟨rfl, goesOn⟩, found⟩
    | flush =>
      obtain ⟨valued, first, rfl, addable, rfl⟩ := (flush_eq_ok_iff distinct).mp (mapError_eq_ok.mp step)
      have flushed : (table.withUpdates updates ++ newRows table.nextNumber first).map (·.key) =
          table.map (·.key) ++ (first.map complete).filterMap Prod.fst := by
        rw [List.map_append, Table.keys_withUpdates, keys_newRows, filterMap_fst_complete]
      have distinct' : Table.DistinctKeys (table.withUpdates updates ++ newRows table.nextNumber first) :=
        (Addable.withUpdates_iff.mpr addable).distinct _
      obtain ⟨goesOn, entries, same, addable', valued', result⟩ := ih distinct' (pending_nil _) run
      rw [List.nil_append] at same
      rw [List.filterMap_nil, List.nil_append, flushed] at valued' result
      have all : Addable table (first ++ entries) :=
        Addable.withUpdates_iff.mp (addable_append_iff.mpr addable')
      refine ⟨List.forall_mem_cons.mpr ⟨rfl, goesOn⟩, first ++ entries, ?_, all, ?_, ?_⟩
      · rw [List.map_append, ← same]
        rfl
      · exact (valued_of_forall valued).append valued'
      -- What waited acts on the rows that were there, and the rest on all rows.
      · have rows := append_newRows_append (table.withUpdates updates) first entries
        rw [Table.nextNumber_withUpdates] at rows
        rw [result, foundUpdates, Table.withUpdates_append _ _ valued', pending.withUpdates_append all, rows]
    | abort reason => cases step

/-- The action leaves no part of an entry out. -/
def Action.isComplete : Action → Bool
  | .add key value => key.isSome && value.isSome
  | .update _ value => value.isSome
  | .flush | .abort _ => true

/-- **A session succeeds** if nothing in it is missing, it is not left, and all keys that it adds are new. -/
theorem Session.exists_finish_eq_ok {block : List Action} {added : List (Option String × Option String)}
    (distinct : table.DistinctKeys) (valued : ∀ entry ∈ updates, entry.2 ≠ none)
    (goesOn : ∀ action ∈ block, action.aborts = false) (full : ∀ action ∈ block, action.isComplete)
    (same : added ++ additions block = entries.map complete) (addable : Addable table entries) :
    ∃ after, Session.finish ⟨some table, added, updates⟩ block = .ok after := by
  induction block generalizing table added updates entries with
  | nil =>
    have waiting : added = entries.map complete := (List.append_nil _).symm.trans same
    exact ⟨_, mapError_eq_ok.mpr ((flush_eq_ok_iff distinct).mpr ⟨valued, entries, waiting, addable, rfl⟩)⟩
  | cons action rest ih =>
    rw [List.forall_mem_cons] at goesOn full
    rw [finish_cons]
    cases action with
    | add key value =>
      refine ih distinct valued goesOn.2 full.2 ?_ addable
      rw [← same, List.append_assoc]
      rfl
    | update key value =>
      cases found : key.bind table.find? with
      | none =>
        have step : perform ⟨some table, added, updates⟩ (.update key value) =
            .ok ⟨some table, added, updates⟩ := by
          rw [perform]
          dsimp only
          rw [found]
        rw [step]
        exact ih distinct valued goesOn.2 full.2 same addable
      | some row =>
        have step : perform ⟨some table, added, updates⟩ (.update key value) =
            .ok ⟨some table, added, Assoc.put updates row.key value⟩ := by
          rw [perform]
          dsimp only
          rw [found]
        rw [step]
        refine ih distinct (fun entry mem ↦ ?_) goesOn.2 full.2 same addable
        rcases Assoc.mem_put mem with rfl | old
        · exact Option.isSome_iff_ne_none.mp full.1
        · exact valued entry old
    | flush =>
      obtain ⟨first, later, rfl, rfl, more⟩ := List.map_eq_append_iff.mp same.symm
      have step := (flush_eq_ok_iff distinct).mpr
        ⟨valued, first, rfl, addable.left, rfl⟩
      have distinct' : Table.DistinctKeys (table.withUpdates updates ++ newRows table.nextNumber first) :=
        (Addable.withUpdates_iff.mpr addable.left).distinct _
      rw [perform, step]
      exact ih distinct' (List.forall_mem_nil _) goesOn.2 full.2 more.symm
        (addable_append_iff.mp (Addable.withUpdates_iff.mpr addable))
    | abort reason => cases goesOn.1

/-- The keys that a block adds, in order. -/
def addedKeys (block : List Action) : List String := (additions block).filterMap Prod.fst

theorem exists_additions {block : List Action} (full : ∀ action ∈ block, action.isComplete) :
    ∃ entries : List (String × String), additions block = entries.map complete := by
  induction block with
  | nil => exact ⟨[], rfl⟩
  | cons action rest ih =>
    obtain ⟨isFull, full⟩ := List.forall_mem_cons.mp full
    obtain ⟨entries, same⟩ := ih full
    match action, isFull with
    | .add (some key) (some value), _ => exact ⟨(key, value) :: entries, congrArg (List.cons _) same⟩
    | .update _ _, _ | .flush, _ | .abort _, _ => exact ⟨entries, same⟩

/-- The table after sessions one after the other. -/
def afterSessions (table : Option Table) (blocks : List (List Action)) : Option Table :=
  blocks.foldl (fun table block ↦ (runSession table block).2) table

/-- The rows after a session that has succeeded: those of before and the added ones, with the updates. -/
def Table.afterBlock (table : Table) (block : List Action) (entries : List (String × String)) : Table :=
  Table.withUpdates (table ++ newRows table.nextNumber entries)
    (foundUpdates (table.map (·.key)) [] block)

theorem runSession_eq (table : Option Table) (block : List Action) :
    runSession table block =
      match Session.finish ⟨table, [], []⟩ block with
      | .ok session => (.ok (), session.table)
      | .error error => (.error error, table) := rfl

/-- One session has its whole effect or none. -/
theorem runSession_cases (distinct : table.DistinctKeys) (block : List Action) :
    (∃ error, runSession (some table) block = (.error error, some table)) ∨
      (∀ action ∈ block, action.aborts = false) ∧ ∃ entries, additions block = entries.map complete ∧
        Addable table entries ∧ runSession (some table) block = (.ok (), some (table.afterBlock block entries)) := by
  rw [runSession_eq]
  cases run : Session.finish ⟨some table, [], []⟩ block with
  | error error => exact .inl ⟨error, rfl⟩
  | ok after =>
    obtain ⟨goesOn, entries, same, addable, -, result⟩ := Session.finish_eq_ok distinct (pending_nil table) run
    exact .inr ⟨goesOn, entries, same, addable, congrArg (Prod.mk _) result⟩

/-- A session leaves a table with distinct keys. -/
theorem distinctKeys_runSession (distinct : table.DistinctKeys) (block : List Action) :
    ∃ rows, (runSession (some table) block).2 = some rows ∧ rows.DistinctKeys := by
  obtain ⟨error, run⟩ | ⟨-, entries, -, addable, run⟩ := runSession_cases distinct block
  · exact ⟨table, congrArg Prod.snd run, distinct⟩
  · refine ⟨_, congrArg Prod.snd run, ?_⟩
    rw [Table.DistinctKeys, Table.afterBlock, Table.keys_withUpdates]
    exact addable.distinct _

theorem distinctKeys_afterSessions (distinct : table.DistinctKeys) (blocks : List (List Action)) :
    ∃ rows, afterSessions (some table) blocks = some rows ∧ rows.DistinctKeys := by
  induction blocks generalizing table with
  | nil => exact ⟨table, rfl, distinct⟩
  | cons block rest ih =>
    obtain ⟨rows, after, distinct⟩ := distinctKeys_runSession distinct block
    rw [afterSessions, List.foldl_cons, after]
    exact ih distinct

/-- **Sessions are all or nothing**, over any number of them: keys stay distinct, a session that fails
leaves the rows as they were, and one that succeeds leaves them with its updates and with its added rows
behind them. One that leaves nothing out succeeds just if it is not left and all keys it adds are new. -/
theorem sessions_all_or_nothing (distinct : table.DistinctKeys) (earlier : List (List Action))
    (block : List Action) :
    ∃ rows, afterSessions (some table) earlier = some rows ∧ rows.DistinctKeys ∧
      ((∃ error, runSession (some rows) block = (.error error, some rows)) ∨
        (∀ action ∈ block, action.aborts = false) ∧ ∃ entries, additions block = entries.map complete ∧
          runSession (some rows) block = (.ok (), some (rows.afterBlock block entries))) ∧
      ((∀ action ∈ block, action.isComplete) →
        ((runSession (some rows) block).1 = .ok () ↔
          (∀ action ∈ block, action.aborts = false) ∧ (rows.map (·.key) ++ addedKeys block).Nodup)) := by
  obtain ⟨rows, after, distinct⟩ := distinctKeys_afterSessions distinct earlier
  refine ⟨rows, after, distinct, ?_, fun full ↦ ?_⟩
  · obtain failed | ⟨goesOn, entries, same, -, run⟩ := runSession_cases distinct block
    · exact .inl failed
    · exact .inr ⟨goesOn, entries, same, run⟩
  · obtain ⟨entries, same⟩ := exists_additions full
    have keys : addedKeys block = Assoc.keys entries := by rw [addedKeys, same, filterMap_fst_complete]
    rw [keys]
    constructor
    · intro succeeds
      obtain ⟨error, run⟩ | ⟨goesOn, others, same', addable, -⟩ := runSession_cases distinct block
      · rw [run] at succeeds
        cases succeeds
      · refine ⟨goesOn, ?_⟩
        rw [← filterMap_fst_complete, ← same, same', filterMap_fst_complete]
        exact addable
    · rintro ⟨goesOn, addable⟩
      obtain ⟨last, run⟩ : ∃ last, Session.finish ⟨some rows, [], []⟩ block = .ok last :=
        Session.exists_finish_eq_ok distinct (List.forall_mem_nil _) goesOn full same addable
      rw [runSession_eq, run]

/-- The first session fails at its end, where its second row has the key of the first one, and leaves no
trace. In the second one the update of `b` finds the row that was flushed, and that of `c` finds nothing. -/
theorem failed_session_leaves_no_trace :
    let failing : List Action :=
      [.update (some "a") (some "z"), .add (some "b") (some "1"), .flush, .add (some "b") (some "2")]
    let block : List Action :=
      [.update (some "a") (some "y"), .add (some "b") (some "1"), .flush, .update (some "b") (some "2"),
        .add (some "c") (some "3"), .update (some "c") (some "4")]
    ∃ rows, afterSessions (some [⟨1, "a", "x"⟩]) [failing] = some rows ∧
      runSession (some rows) block = (.ok (), some [⟨1, "a", "y"⟩, ⟨2, "b", "2"⟩, ⟨3, "c", "3"⟩]) := by
  intro failing block
  have distinct : Table.DistinctKeys [⟨1, "a", "x"⟩] := List.nodup_singleton "a"
  obtain ⟨rows, after, -, outcome, succeeds⟩ := sessions_all_or_nothing distinct [failing] block
  have undone : afterSessions (some [⟨1, "a", "x"⟩]) [failing] = some [⟨1, "a", "x"⟩] := by decide
  obtain rfl := Option.some.inj (undone.symm.trans after)
  refine ⟨_, after, ?_⟩
  obtain ⟨error, failed⟩ | ⟨-, entries, same, run⟩ := outcome
  · have succeeded := (succeeds (by decide)).mpr (by decide)
    rw [failed] at succeeded
    cases succeeded
  · have added : entries = [("b", "1"), ("c", "3")] :=
      List.map_injective_iff.mpr (fun a b same ↦ by simpa [complete, Prod.ext_iff] using same) same.symm
    rw [run, added]
    decide

end VerbForms.Store
