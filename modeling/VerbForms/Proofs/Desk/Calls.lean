import VerbForms.Host.Server
import VerbForms.Proofs.Desk.Frame
import VerbForms.Proofs.Host.Route

/-!
# Runs of a host

A call is an errand of a caller on a resource. The calls on one resource come one after the other: the
next one comes when the one before has got to its console or has failed, while its submission may still be
under way. Calls on different resources may overlap, resets come at any time, and gates are opened in any
order.
-/

namespace VerbForms.Desk

/-- An errand on a resource, performed by a task. -/
structure Call where
  task : TaskId
  path : String
  errand : Host.Errand

/-- Whether a call has not got to its console yet. -/
def onItsWay (desk : Desk) (call : Call) : Bool :=
  ((desk.tasks[call.task]?).map fun task ↦ task.stage.isVisit).getD false

/-- Open a gate without taking turns. -/
def openGate (desk : Desk) (gate : String) : Desk :=
  { desk with
    openGates := desk.openGates ++ [gate]
    atGates := desk.atGates.filter (·.1 != gate)
    ready := desk.ready ++ ((desk.atGates.filter (·.1 == gate)).map Prod.snd).map Turn.run }

/-- What can happen next to a desk on which these calls have been made. -/
inductive Step (desk : Desk) (calls : List Call) : Desk → List Call → Prop where
  /-- A request asks for an errand on a resource to which no call is on its way. -/
  | request {request : Host.Request} {errand : Host.Errand} {path : String} :
      Host.route request = .ok (.errand errand) →
      Host.normalizeResource request.resource = .ok path →
      (∀ call ∈ calls, call.path = path → desk.onItsWay call = false) →
      Step desk calls (desk.spawn (.caller errand request.givenId?) (.visit path)).1
        (calls ++ [⟨desk.tasks.length, path, errand⟩])
  | reset (path : String) : Step desk calls (desk.reset path) calls
  | turn {turn : Turn} {rest : List Turn} : desk.ready = turn :: rest →
      Step desk calls ({ desk with ready := rest }.take turn) calls
  | opened (gate : String) : Step desk calls (desk.openGate gate) calls

/-- The first desk comes to the second with these calls. -/
inductive Runs (first : Desk) : Desk → List Call → Prop where
  | start : Runs first first []
  | step {desk after : Desk} {calls more : List Call} :
      Runs first desk calls → Step desk calls after more → Runs first after more

variable {first desk after : Desk} {calls : List Call}

/-- What holds at the start and is kept by every step holds in every run. -/
theorem Runs.preserves {P : Desk → List Call → Prop} (start : P first [])
    (kept : ∀ desk calls after more, P desk calls → Step desk calls after more → P after more)
    (run : Runs first desk calls) : P desk calls := by
  induction run with
  | start => exact start
  | step _ step ih => exact kept _ _ _ _ ih step

/-! ### Runs of a host are runs -/

theorem Runs.settleWithin (run : Runs first desk calls) (fuel : Nat) :
    Runs first (settleWithin fuel desk) calls := by
  induction fuel generalizing desk with
  | zero => exact run
  | succ fuel ih =>
    rw [Desk.settleWithin]
    split
    · exact run
    · next turn rest next => exact ih (.step run (.turn next))

theorem Runs.settle (run : Runs first desk calls) : Runs first desk.settle calls := run.settleWithin _

theorem Runs.release (run : Runs first desk calls) (gate : String) :
    Runs first (desk.release gate) calls :=
  (Runs.step run (.opened gate)).settle

/-- **A request that a host handles is part of a run**, if no call on its resource is on its way. -/
theorem Runs.handle (run : Runs first desk calls) {request : Host.Request} {handled : Host.Handled}
    (served : Host.handle (some desk) request = (some after, handled))
    (alone : ∀ call ∈ calls, Host.normalizeResource request.resource = .ok call.path →
      desk.onItsWay call = false) :
    ∃ more, Runs first after more ∧ calls <+: more := by
  have unchanged : desk = after → ∃ more, Runs first after more ∧ calls <+: more := by
    rintro rfl
    exact ⟨calls, run, List.prefix_refl calls⟩
  unfold Host.handle at served
  dsimp only at served
  split at served
  · exact unchanged (Option.some.inj (congrArg Prod.fst served))
  · exact unchanged (Option.some.inj (congrArg Prod.fst served))
  · exact unchanged (Option.some.inj (congrArg Prod.fst served))
  · unfold Host.handleReset at served
    split at served
    · exact unchanged (Option.some.inj (congrArg Prod.fst served))
    · next path _ =>
      obtain rfl := Option.some.inj (congrArg Prod.fst served)
      exact ⟨calls, .step run (.reset path), List.prefix_refl calls⟩
  · next errand asked =>
    split at served
    · exact unchanged (Option.some.inj (congrArg Prod.fst served))
    · next path named =>
      obtain rfl := Option.some.inj (congrArg Prod.fst served)
      have asks : Step desk calls _ _ := .request asked named fun call mem same ↦
        alone call mem (same ▸ named)
      exact ⟨_, (Runs.step run asks).settle, List.prefix_append calls _⟩

/-! ### Values that have been put on panels -/

/-- A value that has been put on the panel of a verb for a path. -/
structure Put where
  path : String
  verb : String
  value : Json

/-- The value that a call with this ending has put on a panel: a value counts once it has been answered with
success. -/
def Call.put? (call : Call) (ending : Ending) : Option Put :=
  match call.errand, ending with
  | .setValue verb value _, .ok (.reply reply) =>
    if reply.status = 200 then some ⟨call.path, Text.upper verb, value⟩ else none
  | _, _ => none

/-- The value that a call has put on a panel, if it has. -/
def put? (desk : Desk) (call : Call) : Option Put := (desk.ending? call.task).bind call.put?

/-- The values that calls have put on panels, in the order of the calls. -/
def puts (desk : Desk) (calls : List Call) : List Put := calls.filterMap desk.put?

/-- The last value with content that has been put on the panel of a verb for a path. -/
def lastPut? (puts : List Put) (path verb : String) : Option Json :=
  ((puts.filter fun put ↦ put.path = path ∧ put.verb = verb ∧ put.value.isEmpty = false).getLast?).map
    Put.value

/-- A value that has been put on a panel counts as the last one if no later one was put on a panel for its
path. -/
theorem lastPut?_append_cons (earlier : List Put) {later : List Put} (put : Put)
    (apart : ∀ other ∈ later, other.path ≠ put.path) (path verb : String) :
    lastPut? (earlier ++ put :: later) path verb =
      if put.path = path ∧ put.verb = verb ∧ put.value.isEmpty = false then some put.value
      else lastPut? (earlier ++ later) path verb := by
  rw [lastPut?, lastPut?, List.filter_append, List.filter_append, List.filter_cons]
  by_cases here : put.path = path ∧ put.verb = verb ∧ put.value.isEmpty = false
  · have none : later.filter (fun put ↦ put.path = path ∧ put.verb = verb ∧ put.value.isEmpty = false) = [] :=
      List.filter_eq_nil_iff.mpr fun other mem same ↦
        apart other mem ((of_decide_eq_true same).1.trans here.1.symm)
    rw [if_pos (decide_eq_true here), if_pos here, none, List.getLast?_append]
    rfl
  · rw [if_neg fun same ↦ here (of_decide_eq_true same), if_neg here]

end VerbForms.Desk
