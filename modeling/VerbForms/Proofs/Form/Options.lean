import VerbForms.Form.Live
import VerbForms.Proofs.Schema.Document

/-!
# What options say about a schema

The metadata of a schema is taken from the same definitions, in the same order, as its references are
resolved by (`aligned_definitions`). The options that a view gets follow the schema: an entry for each
property and for each definition (`Follows`), and in it what the schema gives a text for (`Describes`).
-/

namespace VerbForms

/-- A list whose values have been replaced one by one. -/
theorem Assoc.aligned_map {κ α β : Type} {r : κ → α → β → Prop} (f : α → β)
    (related : ∀ key a, r key a (f a)) (entries : List (κ × α)) :
    Aligned r entries (entries.map fun (key, a) ↦ (key, f a)) := by
  induction entries with
  | nil => exact .nil
  | cons entry rest ih => exact .cons (related entry.1 entry.2) ih

/-- Lists side by side whose values are replaced one by one. -/
theorem Assoc.Aligned.eq_map {κ α β : Type} {f : α → β} {entries : List (κ × α)} {outs : List (κ × β)}
    (h : Aligned (fun _ a b ↦ b = f a) entries outs) : outs = entries.map fun (key, a) ↦ (key, f a) := by
  induction h with
  | nil => rfl
  | cons head _ ih => rw [head, ih, List.map_cons]

namespace Form

variable {hints : Hints}

/-! ### Definitions -/

/-- The metadata of a schema has an entry for each of its definitions, in their order. -/
theorem aligned_definitions (hints : Hints) (schema : Json) :
    Assoc.Aligned (fun _ definition fields ↦ fields = fieldsOf hints definition)
      (Schema.definitionsOf schema) (Metadata.ofSchema hints schema).definitions := by
  have described (key : String) :=
    Assoc.aligned_map (r := fun (_ : String) definition fields ↦ fields = fieldsOf hints definition)
      (fieldsOf hints) (fun _ _ ↦ rfl) (Schema.sectionOf schema key)
  exact (Assoc.Aligned.nil.putAll (described "definitions")).putAll (described "$defs")

theorem definitions_ofSchema (hints : Hints) (schema : Json) :
    (Metadata.ofSchema hints schema).definitions =
      (Schema.definitionsOf schema).map fun (name, definition) ↦ (name, fieldsOf hints definition) :=
  (aligned_definitions hints schema).eq_map

/-- The metadata that is found for a name is that of the definition with the name. -/
theorem get?_definitions_ofSchema (hints : Hints) (schema : Json) (name : String) :
    Assoc.get? (Metadata.ofSchema hints schema).definitions name =
      (Assoc.get? (Schema.definitionsOf schema) name).map (fieldsOf hints) := by
  have aligned := aligned_definitions hints schema
  cases found : Assoc.get? (Schema.definitionsOf schema) name with
  | none => exact (aligned.get?_eq_none_iff name).mpr found
  | some definition =>
    obtain ⟨fields, found', rfl⟩ := aligned.exists_right found
    exact found'

/-! ### Options -/

/-- The properties of an object schema, in order; none if they are no object. -/
def propertiesOf (node : Json) : Members := ((node.member? "properties").bind Json.members?).getD []

/-- The options of a field say what its property says: each of them is there if and only if the property
gives a text for it, and for the kind of input a format that is known. -/
structure Describes (hints : Hints) (property options : Json) : Prop where
  label : options.member? "label" = (property.textMember? "title").map Json.text
  helper : options.member? "helper" = (property.textMember? "description").map Json.text
  kind : options.member? "type" =
    ((property.textMember? "format").bind fun format ↦ Assoc.get? hints format).map Json.text
  only : ∃ members, options = .object members ∧ (Assoc.keys members).Sublist ["label", "helper", "type"]

/-- The options of some fields say what the properties of an object schema say, in their order. -/
def DescribesFields (hints : Hints) (node options : Json) : Prop :=
  ∃ fields, options.member? "fields" = some (.object fields) ∧
    Assoc.Aligned (fun _ ↦ Describes hints) (propertiesOf node) fields

/-- The options of a view follow a schema: they say what its properties say and what those of each of its
definitions say. -/
structure Follows (hints : Hints) (schema options : Json) : Prop where
  fields : DescribesFields hints schema options
  definitions : ∃ definitions, options.member? "definitions" = some (.object definitions) ∧
    Assoc.Aligned (fun _ ↦ DescribesFields hints) (Schema.definitionsOf schema) definitions

theorem describes_toJson (hints : Hints) (property : Json) :
    Describes hints property (FieldMeta.ofProperty hints property).toJson := by
  obtain ⟨label, labelled⟩ : ∃ label, label = property.textMember? "title" := ⟨_, rfl⟩
  obtain ⟨helper, helped⟩ : ∃ helper, helper = property.textMember? "description" := ⟨_, rfl⟩
  obtain ⟨kind, hinted⟩ : ∃ kind, kind = (property.textMember? "format").bind (hintFor? hints) := ⟨_, rfl⟩
  have shape : (FieldMeta.ofProperty hints property).toJson =
      .object (optionMember "label" label ++ optionMember "helper" helper ++ optionMember "type" kind) := by
    rw [labelled, helped, hinted]
    rfl
  rw [shape]
  refine ⟨?_, ?_, ?_, _, rfl, ?_⟩
  · rw [← labelled]
    cases label <;> cases helper <;> cases kind <;> rfl
  · rw [← helped]
    cases label <;> cases helper <;> cases kind <;> rfl
  · exact (by cases label <;> cases helper <;> cases kind <;> rfl : _ = kind.map Json.text).trans
      (congrArg _ hinted)
  · have listed (key : String) (value : Option String) :
        (Assoc.keys (optionMember key value)).Sublist [key] := by
      cases value with
      | none => exact List.nil_sublist [key]
      | some text => exact .refl [key]
    rw [Assoc.keys, List.map_append, List.map_append]
    exact ((listed "label" label).append (listed "helper" helper)).append (listed "type" kind)

theorem aligned_fieldsOf (hints : Hints) (node : Json) :
    ∃ fields, fieldsToJson (fieldsOf hints node) = .object fields ∧
      Assoc.Aligned (fun _ ↦ Describes hints) (propertiesOf node) fields := by
  refine ⟨_, rfl, ?_⟩
  rw [fieldsOf, List.map_map]
  exact Assoc.aligned_map _ (fun _ ↦ describes_toJson hints) (propertiesOf node)

/-- **The options of a schema's metadata follow the schema.** -/
theorem follows_toJson (hints : Hints) (schema : Json) :
    Follows hints schema (Metadata.ofSchema hints schema).toJson := by
  have described (node : Json) : DescribesFields hints node (definitionToJson (fieldsOf hints node)) := by
    obtain ⟨fields, same, aligned⟩ := aligned_fieldsOf hints node
    exact ⟨fields, congrArg some same, aligned⟩
  obtain ⟨fields, same, aligned⟩ := aligned_fieldsOf hints schema
  refine ⟨⟨fields, congrArg some same, aligned⟩, _, rfl, ?_⟩
  rw [definitions_ofSchema, List.map_map]
  exact Assoc.aligned_map _ (fun _ ↦ described) (Schema.definitionsOf schema)

end Form

end VerbForms
