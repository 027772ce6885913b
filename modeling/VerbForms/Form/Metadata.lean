import VerbForms.Form.Hint
import VerbForms.Schema.Node

/-!
# Metadata of fields

What a form shows beside its fields: a label, a help text and a hint for the input, taken from the
properties of a schema and of each of its definitions.
-/

namespace VerbForms.Form

/-- What a form shows beside a field. -/
structure FieldMeta where
  label : Option String
  helper : Option String
  inputKind : Option String
  deriving DecidableEq, Repr, Inhabited

/-- The metadata of the fields of an object, in the order of its properties. -/
abbrev Fields := List (String × FieldMeta)

/-- The metadata of a schema. -/
structure Metadata where
  fields : Fields
  /-- The fields of each definition. -/
  definitions : List (String × Fields)
  deriving Inhabited

/-- The metadata of one property. -/
def FieldMeta.ofProperty (hints : Hints) (property : Json) : FieldMeta where
  label := property.textMember? "title"
  helper := property.textMember? "description"
  inputKind := (property.textMember? "format").bind (hintFor? hints)

/-- The metadata of an object's properties. -/
def fieldsOf (hints : Hints) (node : Json) : Fields :=
  (((node.member? "properties").bind Json.members?).getD []).map fun (name, property) =>
    (name, FieldMeta.ofProperty hints property)

/-- The metadata of a schema and of its definitions. -/
def Metadata.ofSchema (hints : Hints) (schema : Json) : Metadata where
  fields := fieldsOf hints schema
  definitions := Schema.sectionKeys.foldl (fun merged key => Assoc.putAll merged
    ((Schema.sectionOf schema key).map fun (name, definition) => (name, fieldsOf hints definition))) []

/-- An option that is left out when absent. -/
def optionMember (key : String) (value : Option String) : Members := (value.map fun s => (key, Json.text s)).toList

/-- The options that a view gets for a field. -/
def FieldMeta.toJson (field : FieldMeta) : Json :=
  .object (optionMember "label" field.label ++ optionMember "helper" field.helper ++ optionMember "type" field.inputKind)

/-- The options that a view gets for fields. -/
def fieldsToJson (fields : Fields) : Json := .object (fields.map fun (name, field) => (name, field.toJson))

/-- The options that a view gets for a definition. -/
def definitionToJson (fields : Fields) : Json := .object [("fields", fieldsToJson fields)]

/-- The options that a view gets for definitions. -/
def definitionsToJson (definitions : List (String × Fields)) : Json :=
  .object (definitions.map fun (name, fields) => (name, definitionToJson fields))

/-- The options that a view gets for a form. -/
def Metadata.toJson (metadata : Metadata) : Json :=
  .object [("fields", fieldsToJson metadata.fields), ("definitions", definitionsToJson metadata.definitions)]

end VerbForms.Form
