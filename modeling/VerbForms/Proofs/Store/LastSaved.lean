import VerbForms.Store.Basic
import VerbForms.Proofs.Json.Storable

/-!
# What a store returns

A store returns under each key the value that was saved last, and what it held at first if nothing was
saved. A save sets one raw text and leaves the others as they are, in memory as in the table
(`exists_write`); that the text gives the saved value back is `Json.read_print`.
-/

namespace VerbForms

/-- The values that count as without content. -/
theorem Json.isEmpty_iff (value : Json) :
    value.isEmpty = true ↔
      value ∈ [.null, .bool false, .int 0, .text "", .array [], .object []] ∨
        ∃ negative e, value = .real (.finite negative 0 e) := by
  cases value with
  | null => simp [isEmpty]
  | bool b => cases b <;> simp [isEmpty]
  | int n => simp [isEmpty]
  | text s => simp [isEmpty]
  | array items => simp [isEmpty]
  | object members => simp [isEmpty]
  | real x =>
    cases x with
    | finite negative m e => cases m <;> simp [isEmpty, Double.isZero]
    | _ => simp [isEmpty, Double.isZero]

namespace Store

variable {store : Store} {key : String} {value : Json}

/-! ### Single saves -/

/-- The row of a key after its value has been set. -/
theorem find?_update (table : Table) (key raw other : String) :
    (table.update key raw).find? other =
      (table.find? other).map fun row ↦ if row.key = key then { row with value := raw } else row := by
  have sameKey : ((fun row : Row ↦ row.key == other) ∘ fun row ↦
      if row.key = key then { row with value := raw } else row) = fun row ↦ row.key == other := by
    funext row
    simp only [Function.comp]
    split <;> rfl
  rw [Table.update, Table.find?, List.find?_map, sameKey, Table.find?]

/-- The value of a key after one has been set. -/
theorem value_upsert (table : Table) (key raw other : String) :
    ((table.upsert key raw).find? other).map (·.value) =
      if other = key then some raw else (table.find? other).map (·.value) := by
  rw [Table.upsert]
  split
  · next known =>
    obtain ⟨row, found⟩ := Option.isSome_iff_exists.mp known
    rw [find?_update]
    split
    · next same =>
      have rowKey : row.key = key := by simpa using List.find?_some found
      rw [same, found, Option.map_some, if_pos rowKey]
      rfl
    · next different =>
      cases foundOther : table.find? other with
      | none => rfl
      | some row =>
        have rowKey : row.key = other := by simpa using List.find?_some foundOther
        rw [Option.map_some, if_neg (rowKey ▸ different)]
  · next unknown =>
    have absent : table.find? key = none := by simpa using unknown
    rw [Table.find?, List.find?_append]
    split
    · next same =>
      rw [same, ← Table.find?, absent]
      simp
    · next different =>
      have noRow : ([⟨table.nextNumber, key, raw⟩] : List Row).find? (·.key == other) = none := by
        simp [Ne.symm different]
      rw [noRow, Option.or_none]
      rfl

/-- A write sets one raw text and keeps the others. -/
theorem exists_write (available : store ≠ .database none) (key raw : String) :
    ∃ next, store.write key raw = .ok next ∧ next ≠ .database none ∧
      ∀ other, next.raw? other = if other = key then some raw else store.raw? other := by
  cases store with
  | memory entries =>
    refine ⟨_, rfl, by simp, fun other ↦ ?_⟩
    rw [raw?, raw?]
    split
    · next same => rw [same, Assoc.get?_put_self]
    · next different => rw [Assoc.get?_put_of_ne fun same ↦ different same.symm]
  | database table =>
    cases table with
    | none => exact absurd rfl available
    | some table => exact ⟨_, rfl, by simp, value_upsert table key raw⟩

/-- A save of a value with content sets one raw text, any other save nothing. -/
theorem exists_save (available : store ≠ .database none) (key : String) (value : Json) :
    ∃ next, store.save key value = .ok next ∧ next ≠ .database none ∧
      ∀ other, next.raw? other =
        if value.isEmpty = false ∧ key = other then some (Json.compact value)
        else store.raw? other := by
  rw [save]
  split
  · next empty => exact ⟨store, rfl, available, fun other ↦ by simp [empty]⟩
  · next content =>
    obtain ⟨next, written, available', raws⟩ := exists_write available key (Json.compact value)
    refine ⟨next, written, available', fun other ↦ ?_⟩
    rw [raws]
    simp [content, eq_comm]

/-- What a store returns can be stored. -/
theorem storable_load (store : Store) (key : String) : (store.load key).Storable := by
  rw [load, decode]
  split
  · next value read =>
    obtain ⟨raw, -, read⟩ := Option.map_eq_some_iff.mp read
    exact Json.storable_of_read read
  · exact ⟨List.nodup_nil, trivial⟩

/-- A save that succeeds sets the value that is returned, unless there is nothing to save. -/
theorem load_of_save {next : Store} (storable : value.Storable) (saved : store.save key value = .ok next) :
    next.load key = if value.isEmpty then store.load key else value := by
  by_cases missing : store = .database none
  · rw [missing, save] at saved
    split at saved
    · next empty =>
      cases saved
      rw [missing, if_pos empty]
    · cases saved
  · obtain ⟨other, same, -, raws⟩ := exists_save missing key value
    obtain rfl : other = next := Except.ok.inj (same.symm.trans saved)
    rw [load, raws]
    cases empty : value.isEmpty with
    | true => rfl
    | false =>
      rw [if_pos ⟨rfl, rfl⟩, decode, Option.map_some, Json.compact, Json.read_print .line storable]
      rfl

/-! ### Runs of saves -/

/-- Save values one after the other. -/
def saveAll (store : Store) (saves : List (String × Json)) : Except StoreError Store :=
  saves.foldlM (fun store entry ↦ store.save entry.1 entry.2) store

/-- The last value with content among those saved under a key. -/
def lastSaved? (saves : List (String × Json)) (key : String) : Option Json :=
  ((saves.filter fun entry ↦ entry.1 = key ∧ entry.2.isEmpty = false).getLast?).map Prod.snd

/-- The first save counts if no later one does. -/
theorem lastSaved?_cons (entry : String × Json) (saves : List (String × Json)) (key : String) :
    lastSaved? (entry :: saves) key =
      (lastSaved? saves key).or
        (if entry.2.isEmpty = false ∧ entry.1 = key then some entry.2 else none) := by
  rw [lastSaved?, lastSaved?, List.filter_cons]
  split
  · next counts =>
    have counts : entry.2.isEmpty = false ∧ entry.1 = key := (of_decide_eq_true counts).symm
    rw [List.getLast?_cons, if_pos counts]
    cases (saves.filter fun entry ↦ entry.1 = key ∧ entry.2.isEmpty = false).getLast? <;> rfl
  · next other =>
    have other : ¬ (entry.2.isEmpty = false ∧ entry.1 = key) := fun counts ↦
      other (decide_eq_true counts.symm)
    rw [if_neg other, Option.or_none]

theorem exists_mem_of_lastSaved? {saves : List (String × Json)}
    (h : lastSaved? saves key = some value) : ∃ entry ∈ saves, entry.2 = value := by
  obtain ⟨entry, last, same⟩ := Option.map_eq_some_iff.mp h
  exact ⟨entry, List.mem_of_mem_filter (List.mem_of_getLast? last), same⟩

/-- After a run of saves each key has the text of its last value, or the one it had at first. -/
theorem exists_saveAll (available : store ≠ .database none) (saves : List (String × Json)) :
    ∃ last, saveAll store saves = .ok last ∧ last ≠ .database none ∧
      ∀ key, last.raw? key = ((lastSaved? saves key).map Json.compact).or (store.raw? key) := by
  induction saves generalizing store with
  | nil => exact ⟨store, rfl, available, fun _ ↦ rfl⟩
  | cons entry saves ih =>
    obtain ⟨next, saved, available, raws⟩ := exists_save available entry.1 entry.2
    obtain ⟨last, savedAll, available, lastRaws⟩ := ih available
    refine ⟨last, ?_, available, fun key ↦ ?_⟩
    · rw [saveAll, List.foldlM_cons, saved]
      exact savedAll
    -- A later save under the key decides; else this one does, if it has content.
    · rw [lastRaws, raws, lastSaved?_cons]
      cases lastSaved? saves key with
      | some value => rfl
      | none => split <;> rfl

/-- **A store returns what was saved last**, in memory as in the table of a database. After any run of
saves a key has the last value with content that was saved under it, and otherwise the value of the
text that was there at first, where a missing text and one that is no JSON text count as the object
without members. Values without content change nothing. -/
theorem load_saveAll (available : store ≠ .database none) {saves : List (String × Json)}
    (storable : ∀ entry ∈ saves, entry.2.Storable) :
    ∃ last, saveAll store saves = .ok last ∧
      (∀ key, last.load key =
        (lastSaved? saves key).getD
          (match (store.raw? key).map Json.read with
            | some (.ok value) => value
            | _ => Json.emptyObject)) ∧
      ∀ key value, value.isEmpty = true → last.save key value = .ok last := by
  obtain ⟨last, saved, _, raws⟩ := exists_saveAll available saves
  refine ⟨last, saved, fun key ↦ ?_, fun key value empty ↦ ?_⟩
  · rw [load, raws]
    cases found : lastSaved? saves key with
    | some value =>
      obtain ⟨entry, mem, rfl⟩ := exists_mem_of_lastSaved? found
      rw [Option.map_some, Option.some_or, decode, Option.map_some, Json.compact,
        Json.read_print .line (storable entry mem)]
      rfl
    | none =>
      rw [Option.map_none, Option.none_or]
      rfl
  · rw [save, if_pos empty]

/-- An object with a double and a text beyond ASCII is saved and an empty value after it; the text
under the other key is broken. -/
theorem load_saveAll_object :
    ∃ last, saveAll (.memory [("b", "[1, 2")])
        [("a", .object [("x", .real (.finite false 6755399441055744 (-52))), ("😀", .text "é")]),
          ("a", .null)] = .ok last ∧
      last.load "a" =
        .object [("x", .real (.finite false 6755399441055744 (-52))), ("😀", .text "é")] ∧
      last.load "b" = Json.emptyObject := by
  have keeps : Json.KeepsDouble (.finite false 6755399441055744 (-52)) := by decide +kernel
  have available : Store.memory [("b", "[1, 2")] ≠ .database none := by simp
  have storable : ∀ entry ∈ [("a", .object [("x", .real (.finite false 6755399441055744 (-52))),
      ("😀", .text "é")]), ("a", .null)], Json.Storable (Prod.snd entry : Json) := by
    simp [Json.Storable, Json.StorableMembers, Assoc.keys, keeps]
  obtain ⟨last, saved, loads, _⟩ := load_saveAll available storable
  exact ⟨last, saved, loads "a", loads "b"⟩

end Store

end VerbForms
