import VerbForms.Json.Print
import VerbForms.Json.Read
import VerbForms.Store.Table
import VerbForms.Text.Blank
import VerbForms.Text.UpperCase

/-!
# Stores of entered values

A store keeps the JSON text of one value per key, in memory or in a table. Only values with content are
saved; a missing entry and one that cannot be read count as the object without members.
-/

namespace VerbForms

/-- What keeps the values of forms: reading always gives a value, writing may fail. -/
class EntryStore (σ : Type) where
  /-- The value under a key. -/
  load : σ → String → Json
  /-- Save a value under a key. -/
  save : σ → String → Json → Except Store.StoreError σ

/-- Where entered values are kept. -/
inductive Store where
  | memory (entries : List (String × String))
  /-- The database, whose table may be missing. -/
  | database (table : Option Store.Table)

namespace Store

/-- The key of a panel's entry: the path alone where a console has a single form, else the verb before it. -/
def entryKey (verb : Option String) (path : String) : String :=
  match verb with
  | none => path
  | some verb => s!"{Text.upper verb} {path}"

/-- The triggers of interactions that save a form, in order. -/
def saveTriggers : List String := ["blur", "change", "click"]

/-- The raw text under a key. -/
def raw? : Store → String → Option String
  | .memory entries, key => Assoc.get? entries key
  | .database table, key => (table.bind (·.find? key)).map (·.value)

/-- The value that a raw text stands for. -/
def decode (raw : Option String) : Json :=
  match raw.map Json.read with
  | some (.ok value) => value
  | _ => Json.emptyObject

/-- The value under a key. -/
def load (store : Store) (key : String) : Json := decode (store.raw? key)

/-- Set the raw text under a key. -/
def write (store : Store) (key raw : String) : Except StoreError Store :=
  match store with
  | .memory entries => .ok (.memory (Assoc.put entries key raw))
  | .database (some table) => .ok (.database (some (table.upsert key raw)))
  | .database none => .error .unavailable

/-- Save a value under a key; a value without content is not saved. -/
def save (store : Store) (key : String) (value : Json) : Except StoreError Store :=
  if value.isEmpty then .ok store else store.write key (Json.compact value)

instance : EntryStore Store := ⟨load, save⟩

/-- Environments whose tables are made by migrations alone. -/
def isProduction (environment : String) : Bool := Text.lower (Text.trim environment) == "production"

/-- A database with the given entries; outside production its table is made. -/
def openDatabase (environment : String) (entries : List (String × String)) : Store :=
  if isProduction environment then .database none
  else .database (some (entries.foldl (fun table (key, raw) => Table.upsert table key raw) []))

/-- The entries as they are shown: by key in memory, by number in a table, nothing without a table. -/
inductive Listing where
  | entries (entries : List (String × String))
  | rows (rows : List Row)
  | missing

/-- The entries as they are shown. -/
def listing : Store → Listing
  | .memory entries => .entries (entries.mergeSort fun a b => decide (a.1 ≤ b.1))
  | .database (some table) => .rows table
  | .database none => .missing

end Store

end VerbForms
