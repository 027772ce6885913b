import VerbForms.Console.Shown

/-!
# Replies of the host

A reply has a status and a body. A request that is refused gets the reason as its body; an unexpected error
ends in the reply for a crash, which alone carries no name of its request.
-/

namespace VerbForms

namespace Host

/-- The body of a reply. -/
inductive ReplyBody where
  | json (value : Json)
  | html (page : String)
  | plain (text : String)
  | empty

/-- The name of a request as its reply gives it. -/
inductive RequestId where
  | given (name : String)
  | generated
  | absent
  deriving DecidableEq, Repr

/-- A reply. -/
structure Reply where
  status : Nat
  body : ReplyBody
  requestId : RequestId

/-- The content type of a body. -/
def ReplyBody.contentType? : ReplyBody → Option String
  | .json _ => some "application/json"
  | .html _ => some "text/html; charset=utf-8"
  | .plain _ => some "text/plain; charset=utf-8"
  | .empty => none

/-- Where in a request a fault is. -/
inductive Place where
  | member (name : String)
  | character (position : Nat)
  deriving DecidableEq, Repr

/-- A fault in the body of a request. -/
inductive BodyFault where
  | missing
  | notObject
  | badTrigger
  | malformed (position : Nat)
  deriving DecidableEq, Repr

/-- The word for a fault. -/
def BodyFault.word : BodyFault → String
  | .missing => "missing"
  | .notObject => "model_attributes_type"
  | .badTrigger => "literal_error"
  | .malformed _ => "json_invalid"

/-- Where a fault is. -/
def BodyFault.places : BodyFault → List Place
  | .missing | .notObject => [.member "body"]
  | .badTrigger => [.member "body", .member "trigger"]
  | .malformed position => [.member "body", .character position]

/-- A place as it is shown. -/
def Place.toJson : Place → Json
  | .member name => .text name
  | .character position => .int position

/-- Why a request is refused. -/
inductive Refusal where
  | notFound
  | methodNotAllowed
  /-- The host has not been started. -/
  | notStarted
  /-- The resource does not lie on the remote host. -/
  | foreignResource
  | unreadableBody
  | badBody (fault : BodyFault)
  | unknownVerb (verb path : String)
  /-- The panel is not in a phase for a value. -/
  | noForm (verb : String) (phase : Phase)
  | notReady (reason : NotReady)
  | submitFailed (failure : SubmitFailure)

/-- The wording of the refusal of a resource. -/
def foreignResourceMessage : String := "Resource path must be relative to the upstream base URL"

/-- The status of a refusal. -/
def Refusal.status : Refusal → Nat
  | .notFound => 404
  | .methodNotAllowed => 405
  | .notStarted => 503
  | .foreignResource => 422
  | .unreadableBody => 400
  | .badBody _ => 422
  | .unknownVerb .. => 404
  | .noForm .. => 409
  | .notReady _ => 409
  | .submitFailed _ => 502

/-- A body that only has a detail. -/
def detail (message : String) : Json := .object [("detail", .text message)]

/-- The body of a refusal. -/
def Refusal.body : Refusal → Json
  | .notFound => detail "Not Found"
  | .methodNotAllowed => detail "Method Not Allowed"
  | .notStarted => detail "Form console is not ready"
  | .foreignResource => detail foreignResourceMessage
  | .unreadableBody => detail "There was an error parsing the body"
  | .badBody fault =>
    .object [("detail", .array [.object [("type", .text fault.word), ("loc", .array (fault.places.map Place.toJson))]])]
  | .unknownVerb verb path => detail s!"No {verb} form for {path}"
  | .noForm verb phase =>
    let word := phase.word
    detail s!"{verb} form is {word}"
  | .notReady reason => detail reason.message
  | .submitFailed failure =>
    .object [
      ("detail", .text failure.error.message),
      ("status_code", (failure.error.status?.map Json.int).getD .null),
      ("body", Json.ofText? failure.error.body?)]

/-- What an endpoint gives, before its reply is named. -/
inductive Served where
  | answer (status : Nat) (body : ReplyBody)
  /-- An error that nobody expected. -/
  | crash

namespace Served

/-- An answer of success. -/
def ok (value : Json) : Served := .answer 200 (.json value)

/-- A refusal. -/
def refused (refusal : Refusal) : Served := .answer refusal.status (.json refusal.body)

/-- The reply to a request that its caller may have named. -/
def reply (served : Served) (given : Option String) : Reply :=
  match served with
  | .answer status body => ⟨status, body, (given.map RequestId.given).getD .generated⟩
  | .crash => ⟨500, .plain "Internal Server Error", .absent⟩

end Served

end Host

end VerbForms
