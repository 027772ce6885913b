import VerbForms.Json.Token

/-!
# Reading of JSON texts

A machine over tokens with the open arrays and objects on a stack. `Json.read` gives the value of a
text or the first error in it. Of several members with one key the last value counts, in the place of
the first.
-/

namespace VerbForms.Json

/-- An array or object that is still open, with what has been read of it. -/
inductive Open where
  /-- The items read so far, the last one first. -/
  | items (done : List Json)
  /-- The members read so far and the key whose value follows. -/
  | members (done : Members) (key : String)

/-- What has been read and what may follow. -/
inductive ReadState where
  /-- A value must follow. -/
  | value (opened : List Open)
  /-- The first item or the end of an array must follow. -/
  | firstItem (opened : List Open)
  /-- A comma or the end of an array must follow. -/
  | afterItem (done : List Json) (opened : List Open)
  /-- The first key or the end of an object must follow. -/
  | firstKey (opened : List Open)
  /-- A key must follow. -/
  | key (done : Members) (opened : List Open)
  /-- A colon must follow. -/
  | colon (done : Members) (key : String) (opened : List Open)
  /-- A comma or the end of an object must follow. -/
  | afterMember (done : Members) (opened : List Open)
  /-- Nothing must follow. -/
  | complete (value : Json)

/-- A value is complete: it goes into the innermost open array or object. -/
def deliver (value : Json) : List Open → ReadState
  | [] => .complete value
  | .items done :: opened => .afterItem (value :: done) opened
  | .members done key :: opened => .afterMember (Assoc.put done key value) opened

/-- The state after the first token of a value. -/
def beginValue (position : Nat) (opened : List Open) : Token → Except ReadError ReadState
  | .atom value => .ok (deliver value opened)
  | .text s => .ok (deliver (.text s) opened)
  | .openArray => .ok (.firstItem opened)
  | .openObject => .ok (.firstKey opened)
  | .broken e => .error e
  | _ => .error (.expectedValue position)

/-- The state after a key. -/
def beginMember (position : Nat) (done : Members) (opened : List Open) : Token → Except ReadError ReadState
  | .text key => .ok (.colon done key opened)
  | .broken .tooManyDigits => .error (.expectedKey position)
  | .broken e => .error e
  | _ => .error (.expectedKey position)

/-- The state after one more token. -/
def readStep (position : Nat) (token : Token) : ReadState → Except ReadError ReadState
  | .value opened => beginValue position opened token
  | .firstItem opened =>
    match token with
    | .closeArray => .ok (deliver (.array []) opened)
    | token => beginValue position (.items [] :: opened) token
  | .afterItem done opened =>
    match token with
    | .closeArray => .ok (deliver (.array done.reverse) opened)
    | .comma => .ok (.value (.items done :: opened))
    | _ => .error (.expectedComma position)
  | .firstKey opened =>
    match token with
    | .closeObject => .ok (deliver (.object []) opened)
    | token => beginMember position [] opened token
  | .key done opened => beginMember position done opened token
  | .colon done key opened =>
    match token with
    | .colon => .ok (.value (.members done key :: opened))
    | _ => .error (.expectedColon position)
  | .afterMember done opened =>
    match token with
    | .closeObject => .ok (deliver (.object done) opened)
    | .comma => .ok (.key done opened)
    | _ => .error (.expectedComma position)
  | .complete _ => .error (.extraText position)

/-- Run the machine to the end of the text. -/
def readTokens : ReadState → List Located → Except ReadError Json
  | .complete value, ⟨_, .finish⟩ :: _ => .ok value
  | state, located :: rest => do
    let next ← readStep located.position located.token state
    readTokens next rest
  | _, [] => .error (.expectedValue 0)

/-- The value of a JSON text given by its characters. -/
def readChars (cs : List Char) : Except ReadError Json := readTokens (.value []) (tokens cs)

/-- The value of a JSON text. -/
def read (s : String) : Except ReadError Json := readChars s.toList

end VerbForms.Json
