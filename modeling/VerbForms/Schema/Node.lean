import VerbForms.Json.Value

/-!
# Nodes of schema documents

A value in a schema document is a reference, an object, an array or a leaf. A reference is an object
whose member `$ref` is a text; what else it declares are its siblings. The definitions of a document
stand in two sections, of which the second one wins where both define a name.
-/

namespace VerbForms.Schema

/-- The member that makes an object a reference. -/
def referenceKey : String := "$ref"

/-- The sections that hold definitions, in the order in which they are merged. -/
def sectionKeys : List String := ["definitions", "$defs"]

/-- The definitions that references can name. -/
abbrev Definitions := Members

/-- The pointer of a reference with these members. -/
def pointer? (members : Members) : Option String := (Assoc.get? members referenceKey).bind Json.text?

/-- A value of a schema document by its role. -/
inductive Node where
  | reference (pointer : String) (members : Members)
  | object (members : Members)
  | array (items : List Json)
  | leaf (value : Json)

/-- The node that a value is. -/
def Node.ofJson : Json → Node
  | .object members =>
    match pointer? members with
    | some pointer => .reference pointer members
    | none => .object members
  | .array items => .array items
  | value => .leaf value

/-- The value that a node is. -/
def Node.toJson : Node → Json
  | .reference _ members => .object members
  | .object members => .object members
  | .array items => .array items
  | .leaf value => value

/-- What a reference declares besides its pointer. -/
def siblings (members : Members) : Members := Assoc.erase members referenceKey

/-- The pointer of a value that is a reference. -/
def reference? (value : Json) : Option String := value.members?.bind pointer?

/-- The type that a value declares for itself, if it is a single word. -/
def declaredType (value : Json) : Option String := value.textMember? "type"

/-- The definitions in one section of a document. -/
def sectionOf (document : Json) (key : String) : Members := ((document.member? key).bind Json.members?).getD []

/-- The definitions of a document. -/
def definitionsOf (document : Json) : Definitions :=
  sectionKeys.foldl (fun merged key => Assoc.putAll merged (sectionOf document key)) []

/-- Nothing is lost in a node. -/
theorem Node.toJson_ofJson (value : Json) : (Node.ofJson value).toJson = value := by
  cases value with
  | object members =>
    simp only [Node.ofJson]
    cases pointer? members <;> rfl
  | _ => rfl

end VerbForms.Schema
