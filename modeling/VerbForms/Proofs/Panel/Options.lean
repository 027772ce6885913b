import VerbForms.Proofs.Form.Emissions
import VerbForms.Proofs.Form.Options
import VerbForms.Proofs.Panel.FormInvariant
import VerbForms.Proofs.Panel.LoadEnds
import Mathlib

/-!
# The options of a form that is shown

A panel takes the metadata of its form from the schema with its references resolved, and drops `required`
from that schema before it shows it. The metadata is that of the schema that is shown all the same
(`ofSchema_withoutRequired`), and so it stays, since nothing but a load changes either of them
(`lasting_consistent`).
-/

namespace VerbForms

open Form (Metadata standardHints)

/-- A view of the form has its schema, and options that follow it. -/
def Form.Live.ShowsOptions (form : Form.Live) : Prop :=
  form.view.member? "schema" = some form.schema ∧
    ∃ options, form.view.member? "options" = some options ∧ Follows standardHints form.schema options

/-- The metadata of the form is that of its schema. -/
def Form.Live.Consistent (form : Form.Live) : Prop := form.metadata = .ofSchema standardHints form.schema

theorem Form.Live.Consistent.showsOptions {form : Form.Live} (h : form.Consistent) : form.ShowsOptions := by
  refine ⟨rfl, form.metadata.toJson, rfl, ?_⟩
  rw [h]
  exact follows_toJson standardHints form.schema

namespace Panel

variable {σ : Type} {panel after : Panel}

/-! ### Loads -/

/-- The form that the load is about to attach has the metadata of its schema. -/
def LoadStage.Consistent : LoadStage → Prop
  | .asking => True
  | .reading schema metadata | .holding schema metadata _ => metadata = .ofSchema standardHints schema

/-- The form that is prepared has the metadata of the schema that it will show. -/
theorem metadata_of_receive {answer : Except Remote.RequestError Json} {schema : Json} {metadata : Metadata}
    (received : panel.receive answer = (after, .prepared schema metadata)) :
    metadata = .ofSchema standardHints schema := by
  unfold receive at received
  split at received
  · cases received
  · cases received
  · split at received
    · cases received
    · split at received
      · rw [receiveSchema] at received
        split at received
        · cases received
        · cases received
          exact (ofSchema_withoutRequired standardHints _).symm
      · cases received

/-- A document whose references can be resolved is shown by a panel that is mounted. -/
theorem exists_form_load [EntryStore σ] (mounted : panel.phase ≠ .unmounted) (store : σ) {document resolved : Json}
    (content : isDocument document = true) (resolves : Schema.resolve document = .ok resolved) :
    ∃ form, (panel.load store (.ok document)).1.form = some form ∧ form.schema = withoutRequired resolved ∧
      form.Consistent := by
  have received : panel.receive (.ok document) =
      ({ panel with phase := .schemaLoaded },
        .prepared (withoutRequired resolved) (.ofSchema standardHints resolved)) := by
    rw [receive, if_neg mounted, if_pos content, receiveSchema, resolves]
  rw [load, received]
  exact ⟨_, rfl, rfl, (ofSchema_withoutRequired standardHints resolved).symm⟩

/-- **Nothing parts the metadata of a form from its schema**: loads attach them together, and values and listeners
are all that changes of a form. -/
theorem lasting_consistent [EntryStore σ] :
    Lasting (fun _ : Event σ ↦ True) Form.Live.Consistent LoadStage.Consistent where
  asking := trivial
  received received := metadata_of_receive received
  read _ _ same := same
  attached same := same
  setValue {form value trigger} same _ := by
    obtain ⟨_, _, changed⟩ := form.exists_form_setValue value trigger
    rw [changed]
    exact same
  emit {form trigger} same := by
    obtain ⟨_, _, changed⟩ := form.exists_form_emit trigger
    rw [changed]
    exact same
  listen same _ := same

namespace Activity

/-- **Metadata and options follow the definitions by which a schema is resolved.** The metadata of a schema has an
entry for each of its definitions, in the order in which references find them, and where both sections define a
name it is that of the second one. A panel that is mounted shows every document whose references can be resolved,
without `required`; and whatever happens to a panel, a form that it shows has options that follow the schema
beside them. -/
theorem options_follow_definitions (store : σ) [EntryStore σ] :
    (∀ hints schema,
      (Metadata.ofSchema hints schema).definitions =
        (Schema.definitionsOf schema).map (fun (name, definition) ↦ (name, Form.fieldsOf hints definition)) ∧
      (schema.DistinctKeys → ∀ name, Assoc.get? (Metadata.ofSchema hints schema).definitions name =
        ((Assoc.get? (Schema.sectionOf schema "$defs") name).or
          (Assoc.get? (Schema.sectionOf schema "definitions") name)).map (Form.fieldsOf hints))) ∧
    (∀ (panel : Panel) document resolved, panel.phase ≠ .unmounted → isDocument document = true →
      Schema.resolve document = .ok resolved →
      ∃ form, (panel.load store (.ok document)).1.form = some form ∧ form.schema = withoutRequired resolved ∧
        form.ShowsOptions) ∧
    ∀ verb path single alerts (events : List (Event σ)) form,
      ((start (Panel.make verb path single) store alerts).run events).panel.form = some form →
        form.ShowsOptions := by
  refine ⟨fun hints schema ↦ ⟨Form.definitions_ofSchema hints schema, fun distinct name ↦ ?_⟩, ?_, ?_⟩
  · rw [Form.get?_definitions_ofSchema, Schema.get?_definitionsOf distinct]
  · intro panel document resolved mounted content resolves
    obtain ⟨form, shown, schema, consistent⟩ := exists_form_load mounted store content resolves
    exact ⟨form, shown, schema, consistent.showsOptions⟩
  · intro verb path single alerts events form shown
    have carries := lasting_consistent.run (carries_start _ _ verb path single store alerts)
      fun event (_ : event ∈ events) ↦ trivial
    exact (carries.panel form shown).1.showsOptions

/-- A document that defines a name twice, and has a property and a definition that are no objects. -/
def clashingShapes : Json := .object [
  ("required", .array [.text "tint"]),
  ("properties", .object [
    ("tint", .object [("title", .text "Tint"), ("format", .text "color")]),
    ("size", .object [("title", .int 4), ("format", .text "cubit")]), ("note", .null)]),
  ("definitions", .object [("hue", .object [("properties", .object [("old", .null)])]), ("plain", .text "none")]),
  ("$defs", .object [("hue", .object [
    ("properties", .object [("new", .object [("description", .text "New")])])])])]

/-- The options of the document with clashing names. -/
def clashingOptions : Json := .object [
  ("fields", .object [
    ("tint", .object [("label", .text "Tint"), ("type", .text "color")]),
    ("size", .object []), ("note", .object [])]),
  ("definitions", .object [
    ("hue", .object [("fields", .object [("new", .object [("helper", .text "New")])])]),
    ("plain", .object [("fields", .object [])])])]

/-- The document is loaded, and something is entered. -/
def showClashingShapes : List (Event Store) :=
  [.load, .proceed 0 (.ok clashingShapes), .proceed 0 (.error .closed), .proceed 0 (.error .closed),
    .setValue (.object [("size", .int 1)]) (some "blur")]

/-- Names that clash are shown as the second section defines them. -/
theorem clashing_shapes_show_second_section :
    Assoc.get? (Metadata.ofSchema standardHints clashingShapes).definitions "hue" =
      some [("new", ⟨none, some "New", none⟩)] ∧
    (∃ form, ((Panel.make "post" "/a" false).load (Store.memory []) (.ok clashingShapes)).1.form = some form ∧
      form.schema = withoutRequired clashingShapes ∧ form.ShowsOptions) ∧
    ∃ form, ((start (Panel.make "post" "/a" false) (Store.memory []) []).run showClashingShapes).panel.form =
      some form ∧ form.ShowsOptions ∧ form.view.member? "options" = some clashingOptions := by
  obtain ⟨definitions, loads, runs⟩ := options_follow_definitions (Store.memory [])
  have distinct : clashingShapes.DistinctKeys := by
    simp [clashingShapes, Json.DistinctKeys, Json.DistinctKeysMembers, Json.DistinctKeysItems, Assoc.keys]
  have resolves : Schema.resolve clashingShapes = .ok clashingShapes := by cbv
  refine ⟨((definitions standardHints clashingShapes).2 distinct "hue").trans rfl,
    loads (Panel.make "post" "/a" false) clashingShapes clashingShapes (by decide) rfl resolves, ?_⟩
  have options : (((start (Panel.make "post" "/a" false) (Store.memory []) []).run
      showClashingShapes).panel.form.bind fun form ↦ form.view.member? "options") = some clashingOptions := by
    cbv
  obtain ⟨form, shown, options⟩ := Option.bind_eq_some_iff.mp options
  exact ⟨form, shown, runs _ _ _ _ _ form shown, options⟩

end Activity

end Panel

end VerbForms
