/-!
# The table of entries

Rows with distinct keys, in ascending order of their numbers. A new row gets the number after the
greatest one; the number of a row never changes.
-/

namespace VerbForms.Store

/-- Why the database refuses a statement. -/
inductive StoreError where
  /-- There is no such table, column or free name. -/
  | unavailable
  /-- A value is missing, or a key is there already. -/
  | integrity
  deriving DecidableEq, Repr

/-- A stored entry. -/
structure Row where
  number : Nat
  key : String
  value : String
  deriving DecidableEq, Repr

/-- The rows of the table, in ascending order of their numbers. -/
abbrev Table := List Row

namespace Table

/-- The row with a key. -/
def find? (table : Table) (key : String) : Option Row := List.find? (·.key == key) table

/-- The number of the next new row. -/
def nextNumber (table : Table) : Nat := table.foldl (fun n row => max n row.number) 0 + 1

/-- Add a row for a key that is not there yet. -/
def insert (table : Table) (key value : String) : Except StoreError Table :=
  if (table.find? key).isSome then .error .integrity else .ok (table ++ [⟨table.nextNumber, key, value⟩])

/-- Set the value of the row with a key, if there is one. -/
def update (table : Table) (key value : String) : Table :=
  table.map fun row => if row.key = key then { row with value } else row

/-- Set the value under a key, in its row or in a new one. -/
def upsert (table : Table) (key value : String) : Table :=
  if (table.find? key).isSome then table.update key value else table ++ [⟨table.nextNumber, key, value⟩]

/-- Keys are distinct. -/
def DistinctKeys (table : Table) : Prop := (table.map (·.key)).Nodup

end Table

end VerbForms.Store
