import VerbForms.Assoc
import VerbForms.Decimal.Double

/-!
# JSON values

Integers are exact, other numbers are doubles, and the members of an object stand in a list, since
their order can be seen. A value read from text has distinct keys in every object
(`Json.DistinctKeys`); the operations here are total on all values.
-/

namespace VerbForms

/-- A JSON value. -/
inductive Json where
  | null
  | bool (b : Bool)
  | int (n : Int)
  | real (x : Double)
  | text (s : String)
  | array (items : List Json)
  | object (members : List (String × Json))
  deriving Inhabited

/-- The members of an object, in order. -/
abbrev Members := List (String × Json)

namespace Json

/-- The object without members. -/
def emptyObject : Json := .object []

/-- The value of an object's member. -/
def member? : Json → String → Option Json
  | .object members, key => Assoc.get? members key
  | _, _ => none

/-- The text that the value is, if it is one. -/
def text? : Json → Option String
  | .text s => some s
  | _ => none

/-- The members, if the value is an object. -/
def members? : Json → Option Members
  | .object members => some members
  | _ => none

/-- The text of an object's member, if the member is there and is a text. -/
def textMember? (value : Json) (key : String) : Option String := (value.member? key).bind text?

/-- Empty values: nothing, no, zero of either sign, and texts, arrays and objects without content. -/
def isEmpty : Json → Bool
  | .null => true
  | .bool b => !b
  | .int n => n == 0
  | .real x => x.isZero
  | .text s => s.isEmpty
  | .array items => items.isEmpty
  | .object members => members.isEmpty

/-- The word for the kind of a value in error messages. -/
def kindWord : Json → String
  | .null => "NoneType"
  | .bool _ => "bool"
  | .int _ => "int"
  | .real _ => "float"
  | .text _ => "str"
  | .array _ => "list"
  | .object _ => "dict"

mutual

/-- Every object in the value has distinct keys. -/
def DistinctKeys : Json → Prop
  | .array items => DistinctKeysItems items
  | .object members => (Assoc.keys members).Nodup ∧ DistinctKeysMembers members
  | _ => True

/-- Every object in the items has distinct keys. -/
def DistinctKeysItems : List Json → Prop
  | [] => True
  | item :: rest => DistinctKeys item ∧ DistinctKeysItems rest

/-- Every object in the members' values has distinct keys. -/
def DistinctKeysMembers : List (String × Json) → Prop
  | [] => True
  | (_, value) :: rest => DistinctKeys value ∧ DistinctKeysMembers rest

end

end Json

end VerbForms
