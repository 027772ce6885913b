import VerbForms.Remote.Message

/-!
# Scripted resources

A resource whose answers are laid down in advance, for rehearsals. Each entry of the script is a list of
answers that are given one by one, the last one again and again. Requests for a schema are answered by the
verb in the query of their address, all others by their method.
-/

namespace VerbForms.Remote

/-- An answer laid down in advance; it is given when its gate is open. -/
structure Answer where
  outcome : Outcome
  gate : Option String

/-- A reply with a text. -/
def Answer.ofText (status : Int) (text : String) : Answer := ⟨.reply ⟨status, [], Text.utf8 text⟩, none⟩

/-- Answers given one by one, the last one again and again. -/
structure Rota where
  answers : List Answer
  given : Nat

/-- The next answer. -/
def Rota.next (rota : Rota) : Option Answer := (rota.answers[rota.given]?).or rota.answers.getLast?

/-- The rota after an answer. -/
def Rota.advance (rota : Rota) : Rota := { rota with given := rota.given + 1 }

/-- A script. -/
inductive Script where
  /-- Answers to all requests, in order. -/
  | sequence (rota : Rota)
  /-- Answers to requests for schemas by verb, and to the others by method. -/
  | tables (schemas responses : List (String × Rota))

/-- The answer to a request for a schema that the script does not know. -/
def noSchema : Answer := .ofText 404 "no schema"

/-- The answer to a method that the script does not know. -/
def noMethod : Answer := .ofText 405 "method not allowed"

/-- The answer in a table, and the table after it. -/
def answerFrom (table : List (String × Rota)) (key : String) (absent : Answer) : Answer × List (String × Rota) :=
  match Assoc.get? table key with
  | some rota => (rota.next.getD absent, Assoc.put table key rota.advance)
  | none => (absent, table)

/-- The answer to a request, and the script after it. -/
def Script.answer (script : Script) (request : Request) : Answer × Script :=
  match script with
  | .sequence rota => (rota.next.getD noMethod, .sequence rota.advance)
  | .tables schemas responses =>
    if request.accept = schemaMime then
      let verb := (request.address.parameter? "method").getD ""
      let (answer, schemas) := answerFrom schemas verb noSchema
      (answer, .tables schemas responses)
    else
      let (answer, responses) := answerFrom responses request.method noMethod
      (answer, .tables schemas responses)

end VerbForms.Remote
