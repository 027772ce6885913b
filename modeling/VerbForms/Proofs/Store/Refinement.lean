import VerbForms.Proofs.Assoc
import VerbForms.Proofs.Success
import VerbForms.Store.Basic
import VerbForms.Store.Session

/-!
# The table keeps what the memory keeps

A table stands for the entries that its rows hold (`Table.entries`). Saving and loading on the table
and on the memory with the same entries, in any order, give the same answers and the same entries
again (`Mirrors.answer`), and the numbers of the rows show in which order their keys came
(`numbering_upsert`). A save with content is one session on the table (`runSession_upsert`).
-/

namespace VerbForms.Store

variable {table table' : Table} {kept : List (String × String)} {key raw : String}

namespace Table

/-- The entries that the rows of a table hold. -/
def entries (table : Table) : List (String × String) := table.map fun row ↦ (row.key, row.value)

/-- The keys of a table with the numbers of their rows. -/
def numbering (table : Table) : List (String × Nat) := table.map fun row ↦ (row.key, row.number)

/-! ### Entries -/

theorem keys_entries (table : Table) : Assoc.keys table.entries = table.map (·.key) := by
  rw [Assoc.keys, entries, List.map_map]
  rfl

/-- The value in the row of a key is the entry's. -/
theorem value_find? (table : Table) (key : String) :
    (table.find? key).map (·.value) = Assoc.get? table.entries key := by
  induction table with
  | nil => rfl
  | cons row rest ih =>
    rw [find?, List.find?_cons, entries, List.map_cons, Assoc.get?]
    by_cases same : row.key = key
    · rw [if_pos same, beq_iff_eq.mpr same]
      rfl
    · rw [if_neg same, beq_eq_false_iff_ne.mpr same]
      exact ih

theorem isSome_find?_iff (table : Table) (key : String) :
    (table.find? key).isSome = true ↔ key ∈ Assoc.keys table.entries := by
  rw [Assoc.mem_keys_iff, ← value_find?, Option.isSome_map]

/-- A write changes the row of its key, or it adds one. -/
theorem upsert_eq (table : Table) (key raw : String) :
    table.upsert key raw =
      if key ∈ Assoc.keys table.entries then table.update key raw
      else table ++ [⟨table.nextNumber, key, raw⟩] := by
  simp only [upsert, isSome_find?_iff]

theorem entries_update (table : Table) (key raw : String) :
    (table.update key raw).entries =
      table.entries.map fun entry ↦ if entry.1 = key then (entry.1, raw) else entry := by
  rw [entries, update, entries, List.map_map, List.map_map]
  congr 1
  funext row
  simp only [Function.comp]
  split <;> rfl

/-- Where keys are distinct, a table is written like a list of entries. -/
theorem entries_upsert (distinct : table.DistinctKeys) (key raw : String) :
    (table.upsert key raw).entries = Assoc.put table.entries key raw := by
  rw [DistinctKeys, ← keys_entries] at distinct
  rw [upsert_eq]
  split
  · next known => rw [entries_update, Assoc.put_of_mem distinct known]
  · next fresh =>
    rw [Assoc.put_of_not_mem fresh, entries, List.map_append]
    rfl

theorem DistinctKeys.upsert (distinct : table.DistinctKeys) (key raw : String) :
    (table.upsert key raw).DistinctKeys := by
  rw [DistinctKeys, ← keys_entries, entries_upsert distinct]
  rw [DistinctKeys, ← keys_entries] at distinct
  exact Assoc.nodup_keys_put distinct key raw

/-! ### Numbers -/

theorem numbering_update (table : Table) (key raw : String) :
    (table.update key raw).numbering = table.numbering := by
  rw [numbering, update, numbering, List.map_map]
  congr 1
  funext row
  simp only [Function.comp]
  split <;> rfl

theorem nextNumber_eq (table : Table) :
    table.nextNumber = (table.numbering.map Prod.snd).foldl max 0 + 1 := by
  rw [nextNumber, numbering, List.map_map, List.foldl_map]
  rfl

/-- A write numbers a new key after all others and changes no number. -/
theorem numbering_upsert (table : Table) (key raw : String) :
    (table.upsert key raw).numbering =
      if key ∈ Assoc.keys table.entries then table.numbering
      else table.numbering ++ [(key, table.nextNumber)] := by
  rw [upsert_eq]
  split
  · exact numbering_update table key raw
  · rw [numbering, List.map_append]
    rfl

/-- Consecutive numbers after the greatest one move the next number on by their count. -/
theorem foldl_max_range' (m count : Nat) :
    (List.range' (m + 1) count).foldl max m = m + count := by
  induction count with
  | zero => rfl
  | succ count ih =>
    rw [List.range'_concat, List.foldl_append, ih]
    simp only [List.foldl_cons, List.foldl_nil]
    omega

theorem nextNumber_of_numbering {added : List String}
    (numbers : table'.numbering = table.numbering ++ added.zipIdx table.nextNumber) :
    table'.nextNumber = table.nextNumber + added.length := by
  have next := nextNumber_eq table
  rw [nextNumber_eq, numbers, List.map_append, List.foldl_append, List.zipIdx_map_snd, next,
    foldl_max_range']
  omega

theorem keys_eq_numbering (table : Table) :
    Assoc.keys table.entries = table.numbering.map Prod.fst := by
  rw [keys_entries, numbering, List.map_map]
  rfl

end Table

/-! ### Writes in a session -/

/-- A write is one session, which looks the key up and then sets the value of its row or adds a row. -/
theorem runSession_upsert (table : Table) (key raw : String) :
    runSession (some table)
        [if (table.find? key).isSome then .update (some key) (some raw)
          else .add (some key) (some raw)] =
      (.ok (), some (table.upsert key raw)) := by
  cases found : table.find? key with
  | none =>
    simp [runSession, Session.perform, Session.flush, Table.insert, Table.upsert, found, bind,
      Except.bind, pure, Except.pure, Except.mapError]
  | some row =>
    have rowKey : row.key = key := by simpa using List.find?_some found
    simp [runSession, Session.perform, Session.flush, Table.upsert, found, rowKey, Assoc.put, bind,
      Except.bind, pure, Except.pure, Except.mapError]

/-! ### Calls -/

/-- A call of a store. -/
inductive Call where
  | save (key : String) (value : Json)
  | load (key : String)

/-- The key that a call writes: only values with content are saved. -/
def Call.written? : Call → Option String
  | .save key value => if value.isEmpty then none else some key
  | .load _ => none

/-- What a call is answered, which is nothing for a save, and the store after it. -/
def answer (store : Store) : Call → Except StoreError (Option Json × Store)
  | .save key value => do return (none, ← store.save key value)
  | .load key => .ok (some (store.load key), store)

/-- What calls are answered one after the other, each with the store after it. -/
def answers (store : Store) : List Call → Except StoreError (List (Option Json × Store))
  | [] => .ok []
  | call :: rest => do
    let (given, next) ← store.answer call
    let later ← next.answers rest
    return (given, next) :: later

/-- The keys that calls write and that are not known before, in the order of their first writes. -/
def newKeys (known : List String) (calls : List Call) : List String :=
  ((calls.filterMap Call.written?).filter (· ∉ known)).eraseDups

theorem newKeys_append (known : List String) (calls later : List Call) :
    newKeys known (calls ++ later) =
      newKeys known calls ++ newKeys (known ++ newKeys known calls) later := by
  rw [newKeys, List.filterMap_append, List.filter_append, List.eraseDups_append, newKeys, newKeys,
    List.removeAll, List.filter_filter]
  congr 3
  funext key
  rw [Bool.eq_iff_iff]
  by_cases isKnown : key ∈ known <;> simp [isKnown]

/-- A table and the entries in memory are the same, and each key stands once. -/
structure Mirrors (table : Table) (kept : List (String × String)) : Prop where
  distinct : table.DistinctKeys
  same : table.entries.Perm kept

/-- The rows of a table stay with their numbers, and behind them come the keys that calls write
first, with the next numbers. -/
def Extends (table : Table) (calls : List Call) (table' : Table) : Prop :=
  table'.numbering =
    table.numbering ++ (newKeys (Assoc.keys table.entries) calls).zipIdx table.nextNumber

theorem Extends.append {calls later : List Call} {last : Table} (first : Extends table calls table')
    (second : Extends table' later last) : Extends table (calls ++ later) last := by
  have keys : Assoc.keys table'.entries =
      Assoc.keys table.entries ++ newKeys (Assoc.keys table.entries) calls := by
    rw [Table.keys_eq_numbering, first, List.map_append, ← Table.keys_eq_numbering,
      List.zipIdx_map_fst]
  have next := Table.nextNumber_of_numbering first
  rw [Extends] at first second ⊢
  rw [second, first, keys, next, newKeys_append, List.zipIdx_append, List.append_assoc]

theorem answer_save_of_isEmpty {store : Store} {value : Json} (empty : value.isEmpty = true) :
    store.answer (.save key value) = .ok (none, store) :=
  bind_eq_ok.mpr ⟨store, if_pos empty, rfl⟩

theorem answer_save_of_write {store next : Store} {value : Json} (content : value.isEmpty = false)
    (written : store.write key (Json.compact value) = .ok next) :
    store.answer (.save key value) = .ok (none, next) := by
  refine bind_eq_ok.mpr ⟨next, ?_, rfl⟩
  rw [save, content]
  exact written

/-- The step on both sides: a call is answered alike and leaves the same entries. -/
theorem Mirrors.answer (mirrors : Mirrors table kept) (call : Call) :
    ∃ given table' kept',
      Store.answer (.database (some table)) call = .ok (given, .database (some table')) ∧
      Store.answer (.memory kept) call = .ok (given, .memory kept') ∧ Mirrors table' kept' ∧
      Extends table [call] table' := by
  have distinct := mirrors.distinct
  rw [Table.DistinctKeys, ← Table.keys_entries] at distinct
  have nothingNew (nothing : call.written? = none) : Extends table [call] table := by
    simp [Extends, newKeys, nothing]
  cases call with
  | load key =>
    have sameLoad : (Store.database (some table)).load key = (Store.memory kept).load key := by
      rw [load, load, raw?, raw?, Option.bind_some, Table.value_find?,
        Assoc.get?_eq_of_perm distinct mirrors.same]
    refine ⟨some ((Store.memory kept).load key), table, kept, ?_, rfl, mirrors, nothingNew rfl⟩
    rw [Store.answer, sameLoad]
  | save key value =>
    cases content : value.isEmpty with
    | true =>
      have nothing := nothingNew (if_pos content)
      exact ⟨none, table, kept, answer_save_of_isEmpty content, answer_save_of_isEmpty content,
        mirrors, nothing⟩
    | false =>
      have same := Assoc.perm_put distinct mirrors.same key (Json.compact value)
      rw [← Table.entries_upsert mirrors.distinct] at same
      refine ⟨none, _, _, answer_save_of_write content rfl, answer_save_of_write content rfl,
        ⟨mirrors.distinct.upsert key _, same⟩, ?_⟩
      rw [Extends, Table.numbering_upsert]
      split
      · next known => simp [newKeys, Call.written?, content, known]
      · next fresh => simp [newKeys, Call.written?, content, fresh, List.eraseDups_cons]

/-- **The table refines the memory.** From the same entries, with distinct keys, a table and the
memory answer every run of saves and loads alike. After each call the rows of the table hold exactly
the entries in memory, one row for each key, the rows there were have kept their numbers, and the
keys that are new stand behind them in the order of their first saves, numbered on from the greatest
number. -/
theorem table_refines_memory (distinct : table.DistinctKeys) (same : table.entries.Perm kept)
    (calls : List Call) :
    ∃ fromTable fromMemory, answers (.database (some table)) calls = .ok fromTable ∧
      answers (.memory kept) calls = .ok fromMemory ∧
      ∀ n < calls.length, ∃ given table' kept',
        fromTable[n]? = some (given, .database (some table')) ∧
        fromMemory[n]? = some (given, .memory kept') ∧
        table'.DistinctKeys ∧ table'.entries.Perm kept' ∧
        table'.numbering = table.numbering ++
          (newKeys (Assoc.keys table.entries) (calls.take (n + 1))).zipIdx table.nextNumber := by
  induction calls generalizing table kept with
  | nil => exact ⟨[], [], rfl, rfl, fun n below ↦ by simp at below⟩
  | cons call rest ih =>
    obtain ⟨given, next, nextKept, answered, answered', mirrors, extends'⟩ :=
      Mirrors.answer ⟨distinct, same⟩ call
    obtain ⟨fromTable, fromMemory, run, run', steps⟩ := ih mirrors.distinct mirrors.same
    refine ⟨(given, .database (some next)) :: fromTable, (given, .memory nextKept) :: fromMemory,
      ?_, ?_, fun n below ↦ ?_⟩
    · exact bind_eq_ok.mpr ⟨_, answered, bind_eq_ok.mpr ⟨fromTable, run, rfl⟩⟩
    · exact bind_eq_ok.mpr ⟨_, answered', bind_eq_ok.mpr ⟨fromMemory, run', rfl⟩⟩
    · cases n with
      | zero => exact ⟨given, next, nextKept, rfl, rfl, mirrors.distinct, mirrors.same, extends'⟩
      | succ n =>
        obtain ⟨given', table', kept', here, here', distinct', same', later⟩ :=
          steps n (Nat.lt_of_succ_lt_succ below)
        exact ⟨given', table', kept', here, here', distinct', same', extends'.append later⟩

/-- A new key comes behind the two rows that there are and takes the number after the greatest one; the
broken text of the second row stays. -/
theorem new_key_numbered_last :
    ∃ fromTable fromMemory given table' kept',
      answers (.database (some [⟨2, "b", "1"⟩, ⟨4, "a", "[1,"⟩]))
        [.save "c" (.int 7), .save "a" .null, .load "a"] = .ok fromTable ∧
      answers (.memory [("a", "[1,"), ("b", "1")])
        [.save "c" (.int 7), .save "a" .null, .load "a"] = .ok fromMemory ∧
      fromTable[2]? = some (given, .database (some table')) ∧
      fromMemory[2]? = some (given, .memory kept') ∧ table'.entries.Perm kept' ∧
      table'.numbering = [("b", 2), ("a", 4), ("c", 5)] := by
  have distinct : Table.DistinctKeys [⟨2, "b", "1"⟩, ⟨4, "a", "[1,"⟩] := by
    simp [Table.DistinctKeys]
  have same : (Table.entries [⟨2, "b", "1"⟩, ⟨4, "a", "[1,"⟩]).Perm [("a", "[1,"), ("b", "1")] :=
    List.Perm.swap _ _ _
  obtain ⟨fromTable, fromMemory, run, run', steps⟩ := table_refines_memory distinct same
    [.save "c" (.int 7), .save "a" .null, .load "a"]
  obtain ⟨given, table', kept', here, here', _, same', numbers⟩ := steps 2 (by decide)
  exact ⟨fromTable, fromMemory, given, table', kept', run, run', here, here', same', numbers⟩

end VerbForms.Store
