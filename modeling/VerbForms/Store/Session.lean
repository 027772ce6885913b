import VerbForms.Assoc
import VerbForms.Store.Table

/-!
# Sessions

A session is a block of actions on the table that takes effect as a whole or not at all. Additions and
updates wait until they are flushed; a query sees the rows of the table and those flushed before. The end
of the block flushes what waits and commits.
-/

namespace VerbForms.Store

/-- An action in a session. -/
inductive Action where
  /-- Add an entry. -/
  | add (key value : Option String)
  /-- Look up the entry with a key and set its value if there is one; no entry is without a key. -/
  | update (key value : Option String)
  /-- Send what waits to the table. -/
  | flush
  /-- Leave the block with an error. -/
  | abort (reason : String)

/-- Why a session ended without effect. -/
inductive SessionError where
  | store (error : StoreError)
  | aborted (reason : String)
  deriving DecidableEq, Repr

/-- The table as the session sees it, and what waits: additions in order, and for each key the value that
it was set to last. -/
structure Session where
  table : Option Table
  added : List (Option String × Option String)
  updated : List (String × Option String)

namespace Session

/-- Send the waiting updates, then the waiting additions, to the table. -/
def flush (session : Session) : Except StoreError Session :=
  if session.added.isEmpty && session.updated.isEmpty then .ok session
  else
    match session.table with
    | none => .error .unavailable
    | some table => do
      let table ← session.updated.foldlM (fun table (key, value) =>
        match value with
        | some value => .ok (Table.update table key value)
        | none => .error .integrity) table
      let table ← session.added.foldlM (fun table entry =>
        match entry with
        | (some key, some value) => Table.insert table key value
        | _ => .error .integrity) table
      return ⟨some table, [], []⟩

/-- Perform an action. -/
def perform (session : Session) : Action → Except SessionError Session
  | .add key value => .ok { session with added := session.added ++ [(key, value)] }
  | .update key value =>
    match session.table with
    | none => .error (.store .unavailable)
    | some table =>
      match key.bind table.find? with
      | some row => .ok { session with updated := Assoc.put session.updated row.key value }
      | none => .ok session
  | .flush => session.flush.mapError .store
  | .abort reason => .error (.aborted reason)

end Session

/-- The table after a block of actions: with all their effects, or as it was if the block fails. -/
def runSession (table : Option Table) (actions : List Action) : Except SessionError Unit × Option Table :=
  let result := do
    let session ← actions.foldlM Session.perform ⟨table, [], []⟩
    session.flush.mapError SessionError.store
  match result with
  | .ok session => (.ok (), session.table)
  | .error e => (.error e, table)

end VerbForms.Store
