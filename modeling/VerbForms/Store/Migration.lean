import VerbForms.Store.Table
import VerbForms.Text.Blank

/-!
# The migration that makes the table

The layout of the database as far as the table of entries goes: its columns and indexes. The migration
goes forward only. It makes the table where it is missing, and a unique index on the key where there is
none; an action that fails leaves the layout as it was.
-/

namespace VerbForms.Store

/-- A column of a table. -/
structure Column where
  name : String
  type : String
  nullable : Bool
  primary : Bool
  deriving DecidableEq, Repr

/-- An index of a table. -/
structure Index where
  name : String
  columns : List String
  unique : Bool
  deriving DecidableEq, Repr

/-- The columns and indexes of the table of entries. -/
structure Layout where
  columns : List Column
  indexes : List Index
  deriving DecidableEq, Repr

/-- The name of the table. -/
def tableName : String := "form_entries"

/-- The name of the index on the key. -/
def keyIndexName : String := "ix_form_entries_key"

/-- The column of the key. -/
def keyColumn : String := "key"

/-- The revision that the migration leads to. -/
def revision : String := "0001_add_form_entries"

/-- Words that end the type in the declaration of a column. -/
def constraintWords : List String :=
  ["PRIMARY", "NOT", "NULL", "UNIQUE", "DEFAULT", "CHECK", "COLLATE", "REFERENCES", "CONSTRAINT", "GENERATED"]

/-- Whether one word directly follows another one. -/
def hasPair (first second : String) : List String → Bool
  | a :: b :: rest => (a == first && b == second) || hasPair first second (b :: rest)
  | _ => false

/-- Types with names of their own. -/
def namedTypes : List String :=
  ["BIGINT", "BLOB", "BOOLEAN", "CHAR", "DATE", "DATETIME", "DECIMAL", "DOUBLE", "FLOAT", "INTEGER", "JSON", "NUMERIC",
    "NVARCHAR", "REAL", "SMALLINT", "TEXT", "TIME", "TIMESTAMP", "VARCHAR"]

/-- Short names of types. -/
def shortTypes : List (String × String) := [("BOOL", "BOOLEAN"), ("INT", "INTEGER")]

/-- The type that any other name means by the words it holds. -/
def affinityOf (name : String) : String :=
  let holdsAny (words : List String) : Bool := words.any (Text.holds · name)
  if holdsAny ["INT"] then "INTEGER"
  else if holdsAny ["CHAR", "CLOB", "TEXT"] then "TEXT"
  else if name.isEmpty || holdsAny ["BLOB"] then "NULL"
  else if holdsAny ["REAL", "FLOA", "DOUB"] then "REAL"
  else "NUMERIC"

/-- Types that are told with their lengths. -/
def sizedTypes : List String := ["CHAR", "NVARCHAR", "TEXT", "VARCHAR"]

/-- A declared type as it is told: its name, and its length if it is a text. -/
def typeOf (declared : String) : String :=
  let letters := declared.toList.takeWhile (· != '(')
  let name := String.ofList letters
  let told := (shortTypes.lookup name).getD (if namedTypes.contains name then name else affinityOf name)
  if sizedTypes.contains told then told ++ String.ofList (declared.toList.drop letters.length) else told

/-- The column that a name and a declaration in SQL make. -/
def Column.ofDeclaration (name declaration : String) : Column :=
  let words := ((declaration.splitOn " ").filter (· != "")).map String.toUpper
  { name
    type := typeOf (" ".intercalate (words.takeWhile fun word => !constraintWords.contains word))
    nullable := !hasPair "NOT" "NULL" words
    primary := hasPair "PRIMARY" "KEY" words }

/-- The table that the migration makes. -/
def freshLayout : Layout where
  columns := [⟨"id", "INTEGER", false, true⟩, ⟨"key", "VARCHAR(1000)", false, false⟩, ⟨"value", "TEXT", false, false⟩,
    ⟨"created_at", "DATETIME", false, false⟩, ⟨"updated_at", "DATETIME", false, false⟩]
  indexes := []

/-- Why a migration fails. -/
inductive MigrationError where
  | store (error : StoreError)
  | forwardOnly
  deriving DecidableEq, Repr

/-- The wording of an error; the wording of the database is not part of it. -/
def MigrationError.message : MigrationError → String
  | .store _ => ""
  | .forwardOnly => s!"Forward-only migration policy: downgrade is not supported for revision {revision}"

/-- Whether there is a unique index on exactly the key. -/
def Layout.hasKeyIndex (layout : Layout) : Bool :=
  layout.indexes.any fun index => index.columns == [keyColumn] && index.unique

/-- Whether the database takes two names for the same one: it does not tell capitals from small letters. -/
def sameName (a b : String) : Bool := a.toLower == b.toLower

/-- Make the index on the key, whose name must be free. A quoted name that is no column is a constant
text to the database, so that the index then covers no column. -/
def Layout.addKeyIndex (layout : Layout) : Except StoreError Layout :=
  if layout.indexes.any (sameName keyIndexName ·.name) then .error .unavailable
  else
    let covered := (layout.columns.find? (sameName keyColumn ·.name)).toList.map (·.name)
    .ok { layout with indexes := layout.indexes ++ [⟨keyIndexName, covered, true⟩] }

/-- The layout after the migration. -/
def upgrade : Option Layout → Except StoreError Layout
  | none => freshLayout.addKeyIndex
  | some layout => if layout.hasKeyIndex then .ok layout else layout.addKeyIndex

/-- A step of a migration. -/
inductive MigrationStep where
  | upgrade
  | downgrade
  deriving DecidableEq, Repr

/-- Perform a step; where it fails the layout stays as it was. -/
def migrate (layout : Option Layout) : MigrationStep → Except MigrationError Unit × Option Layout
  | .upgrade =>
    match upgrade layout with
    | .ok upgraded => (.ok (), some upgraded)
    | .error e => (.error (.store e), layout)
  | .downgrade => (.error .forwardOnly, layout)

/-- The indexes as they are shown: those that cover columns, by name. -/
def Layout.shownIndexes (layout : Layout) : List Index :=
  (layout.indexes.filter (!·.columns.isEmpty)).mergeSort fun a b => decide (a.name ≤ b.name)

end VerbForms.Store
