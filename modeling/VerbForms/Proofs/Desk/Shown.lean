import VerbForms.Proofs.Desk.World
import VerbForms.Proofs.Remote.Interpretation
import VerbForms.Proofs.Text.Utf8

/-!
# Responses that are shown

A value that the upstream returns to a submission or to a reading of the resource is shown as an indented
text, and the text reads back to the value. The value needs no conditions for that: it has been read from
a body itself, so that it can be printed and read again (`Remote.storable_of_interpret`).
-/

namespace VerbForms

open Remote (Request Outcome Answer interpret)

/-! ### Values that the upstream returns -/

namespace Desk

variable {desk after : Desk} {task : TaskId} {id : ConsoleId} {index : Nat} {panel : Panel}
  {console : Console} {purpose : Purpose} {value : Json}

/-! ### Where answers are put -/

/-- What a desk is after a turn in which a task has got a value from the upstream for a purpose. -/
inductive Answered (desk : Desk) (purpose : Purpose) (value : Json) : Desk → Prop where
  /-- The answer comes in the turn in which the request is sent. -/
  | atOnce {task : TaskId} {method accept path : String} {payload : Json} {console : Console}
      {request : Request} {asking : Desk} {answer : Answer} :
      desk.console? purpose.console = some console →
      console.gateway.request method accept path payload = .ok request →
      { desk with sent := desk.sent ++ [request] }.answerFor purpose.console request = (asking, answer) →
      asking.passes answer.gate = true → interpret request answer.outcome = .ok value →
      Answered desk purpose value (desk.ask task purpose method accept path payload)
  /-- The answer has waited for a gate, and the task has not been cancelled meanwhile. -/
  | later {task : TaskId} {current : Task} {request : Request} {outcome : Outcome} :
      desk.tasks[task]? = some current → current.stage = .asking purpose request outcome →
      current.cancelled = false → interpret request outcome = .ok value →
      Answered desk purpose value (desk.runTask task)

theorem Answered.storable (h : Answered desk purpose value after) : value.Storable := by
  cases h with
  | atOnce _ _ _ _ given | later _ _ _ given => exact Remote.storable_of_interpret given

end Desk

end VerbForms
