import VerbForms.Text.Blank

/-!
# Pointers to definitions

A pointer names a definition in one of the two sections of the same document. Blanks around the pointer
do not count, and the name is neither empty nor a path.
-/

namespace VerbForms.Schema

/-- Why a schema document cannot be made self-contained. -/
inductive SchemaError where
  /-- The document is a value of another kind. -/
  | notAnObject (kind : String)
  /-- The pointer has neither of the two forms. -/
  | unsupported (pointer : String)
  /-- The pointer names no definition. -/
  | unresolved (pointer name : String)
  /-- The pointer leads back into the chain of definitions it was reached by. -/
  | cyclic (pointer : String) (chain : List String)
  deriving DecidableEq, Repr

/-- The wording of an error. -/
def SchemaError.message : SchemaError → String
  | .notAnObject kind => s!"schema document must be a JSON object, got {kind}"
  | .unsupported pointer => s!"unsupported reference `{pointer}`; expected #/$defs/<name> or #/definitions/<name>"
  | .unresolved pointer name => s!"unresolved reference `{pointer}`: no definition named `{name}`"
  | .cyclic pointer chain =>
    let steps := " -> ".intercalate chain
    s!"cyclic reference `{pointer}` ({steps})"

/-- What stands before the name in a pointer. -/
def pointerStarts : List (List Char) := ["#/definitions/".toList, "#/$defs/".toList]

/-- The text behind a start. -/
def behind? (start cs : List Char) : Option (List Char) :=
  if start.isPrefixOf cs then some (cs.drop start.length) else none

/-- Names that a pointer can hold. -/
def isName (name : List Char) : Bool := !name.isEmpty && !name.contains '/'

/-- The name of the definition that a pointer points at. -/
def definitionName (pointer : String) : Except SchemaError String :=
  match pointerStarts.findSome? (behind? · (Text.trimChars pointer.toList)) with
  | some name => if isName name then .ok (String.ofList name) else .error (.unsupported pointer)
  | none => .error (.unsupported pointer)

end VerbForms.Schema
