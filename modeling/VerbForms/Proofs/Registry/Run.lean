import VerbForms.Registry.Basic

/-!
# Runs of a registry

An event is what happens to a registry at one moment between two turns of its visits; a run is a
finite sequence of events, each possible where it happens. Which event comes next is left open, so
that the runs are all interleavings of visits, resets and closings, with builds that succeed, fail
or are cancelled at any time.
-/

namespace VerbForms.Registry

/-- Stages in which a turn comes up for a queued visit. -/
def Stage.takesTurn : Stage → Bool
  | .woken | .withdrawn | .dismissed => true
  | _ => false

/-- Stages of a queued visit that has not been cancelled. -/
def Stage.canCancel : Stage → Bool
  | .waiting | .woken => true
  | _ => false

/-- Stages in which the factory is at work. -/
def Stage.produces : Stage → Bool
  | .building none => true
  | _ => false

/-- Stages in which a console is being started. -/
def Stage.starts : Stage → Bool
  | .building (some _) => true
  | _ => false

/-- Stages from which a visit can end without a console: the factory has failed or was cancelled,
or the console that did not start has been closed. -/
def Stage.canGiveUp : Stage → Bool
  | .building none | .discarding _ => true
  | _ => false

/-- What happens at one moment. -/
inductive Event where
  | arrive (ticket : Ticket) (path : String)
  /-- A queued visit takes its turn. -/
  | turn (ticket : Ticket)
  /-- A queued visit is cancelled. -/
  | cancel (ticket : Ticket)
  /-- The factory has made the console of a build. -/
  | made (ticket : Ticket) (console : ConsoleId)
  /-- A build has succeeded. -/
  | keep (ticket : Ticket)
  /-- The start of a console has failed or was cancelled. -/
  | fail (ticket : Ticket)
  /-- A visit ends without a console. -/
  | giveUp (ticket : Ticket)
  | reset (ticket : Ticket) (path : String)
  | clear (ticket : Ticket)
  /-- An operation has closed the first of the consoles it has to close. -/
  | closed (ticket : Ticket)
  deriving DecidableEq, Repr

/-- Whether all consoles are taken out. -/
def Event.isClear : Event → Bool
  | .clear _ => true
  | _ => false

/-- The stage of the visit with a ticket. -/
def stage? (r : Registry) (ticket : Ticket) : Option Stage := (r.visit? ticket).map Visit.stage

/-- No operation under way has the ticket. -/
def Fresh (r : Registry) (ticket : Ticket) : Prop :=
  (∀ v ∈ r.visits, v.ticket ≠ ticket) ∧ ∀ c ∈ r.closings, c.ticket ≠ ticket

instance (r : Registry) (ticket : Ticket) : Decidable (r.Fresh ticket) :=
  inferInstanceAs (Decidable (_ ∧ _))

/-- Whether an event can happen. -/
def Enabled (r : Registry) : Event → Prop
  | .arrive ticket _ | .reset ticket _ | .clear ticket => r.Fresh ticket
  | .turn ticket => (r.stage? ticket).any Stage.takesTurn = true
  | .cancel ticket => (r.stage? ticket).any Stage.canCancel = true
  | .made ticket _ => (r.stage? ticket).any Stage.produces = true
  | .keep ticket | .fail ticket => (r.stage? ticket).any Stage.starts = true
  | .giveUp ticket => (r.stage? ticket).any Stage.canGiveUp = true
  | .closed ticket => ∃ c ∈ r.closings, c.ticket = ticket

instance (r : Registry) : (event : Event) → Decidable (r.Enabled event)
  | .arrive ticket _ | .reset ticket _ | .clear ticket =>
    inferInstanceAs (Decidable (r.Fresh ticket))
  | .turn _ | .cancel _ | .made _ _ | .keep _ | .fail _ | .giveUp _ =>
    inferInstanceAs (Decidable (_ = true))
  | .closed ticket => inferInstanceAs (Decidable (∃ c ∈ r.closings, c.ticket = ticket))

/-- The registry after an event. -/
def perform (r : Registry) : Event → Registry
  | .arrive ticket path => (r.arrive ticket path).1
  | .turn ticket => (r.resume ticket).1
  | .cancel ticket => (r.cancel ticket).1
  | .made ticket console => r.made ticket console
  | .keep ticket =>
    match r.stage? ticket with
    | some (.building (some console)) => (r.keep ticket console).1
    | _ => r
  | .fail ticket => (r.fail ticket).1
  | .giveUp ticket => (r.giveUp ticket).1
  | .reset ticket path => (r.reset ticket path).1
  | .clear ticket => (r.clear ticket).1
  | .closed ticket => r.closed ticket

/-- The events lead from the first registry to the second. -/
inductive Run : Registry → List Event → Registry → Prop where
  | done (r : Registry) : Run r [] r
  | step {r s : Registry} {event : Event} {events : List Event} :
      r.Enabled event → Run (r.perform event) events s → Run r (event :: events) s

/-- What every event preserves, every run preserves. -/
theorem Run.preserves {P : Registry → Prop}
    (kept : ∀ r event, P r → r.Enabled event → P (r.perform event))
    {r s : Registry} {events : List Event} (run : Run r events s) (h : P r) : P s := by
  induction run with
  | done => exact h
  | step enabled _ ih => exact ih (kept _ _ h enabled)

end VerbForms.Registry
