import VerbForms.Console.Basic
import VerbForms.Proofs.Panel.Run

/-!
# Runs of a console

A console at work: its start, and for each panel the loads and submissions that are under way. An event
is what happens at one moment between two turns, to the console or to one of its panels, and a run is any
finite sequence of events; an event that cannot happen where it stands changes nothing. The start comes to
its end at some moment after all loads and the reading of the resource have ended.
-/

namespace VerbForms

namespace Console

/-- What is under way for a panel. -/
structure Work where
  /-- Whether a load has still to begin. -/
  due : Bool
  loads : List Panel.LoadStage
  /-- Number of submissions under way. -/
  sending : Nat

/-- Nothing is under way. -/
def Work.none : Work := ⟨false, [], 0⟩

/-- No load is under way or has still to begin. -/
def Work.isLoaded (work : Work) : Bool := !work.due && work.loads.isEmpty

/-- How far the start of a console is. -/
inductive Start where
  | notYet
  | running
  | returned
  | failed
  deriving DecidableEq

/-- The start has failed if it was running. -/
def Start.fail : Start → Start
  | .running => .failed
  | start => start

/-- A console at work. -/
structure Activity (σ : Type) where
  console : Console
  store : σ
  /-- What is under way for the panel at each place. -/
  work : Nat → Work
  /-- Whether the answer to the reading of the resource is still to come. -/
  reading : Bool
  start : Start

/-- What happens at one moment. -/
inductive Event (σ : Type) where
  /-- The start is asked for. -/
  | start
  /-- The load of a panel begins. -/
  | begin (index : Nat)
  /-- The answer to the reading of the resource. -/
  | read (answer : Except Remote.RequestError Json)
  /-- The start comes to its end, if nothing that it waits for is under way. -/
  | finish
  /-- The start is given up. -/
  | cancel
  /-- Something happens to a panel by itself. -/
  | panel (index : Nat) (event : Panel.Event σ)
  | select (verb : String)
  | notifyAll (trigger : String)
  | copy
  | unmount
  | close
  /-- Others change the store. -/
  | elsewhere (change : σ → σ)

/-- Whether the start is asked for. -/
def Event.isStart {σ : Type} : Event σ → Bool
  | .start => true
  | _ => false

namespace Activity

variable {σ : Type}

/-- A console that has not been started. -/
def fresh (console : Console) (store : σ) : Activity σ where
  console := console
  store := store
  work := fun _ ↦ .none
  reading := false
  start := .notYet

/-- A panel of the console at work. -/
def panelAt (a : Activity σ) (index : Nat) (panel : Panel) : Panel.Activity σ where
  panel := panel
  store := a.store
  alerts := a.console.alerts
  loads := (a.work index).loads
  sending := (a.work index).sending

/-- The console after something has happened to the panel at a place. -/
def put (a : Activity σ) (index : Nat) (due : Bool) (b : Panel.Activity σ) : Activity σ :=
  { a with
    console := { a.console.setPanel index b.panel with alerts := b.alerts }
    store := b.store
    work := fun other ↦ if other = index then ⟨due, b.loads, b.sending⟩ else a.work other }

/-- No load is under way or has still to begin. -/
def isLoaded (a : Activity σ) : Bool :=
  (List.range a.console.panels.length).all fun index ↦ (a.work index).isLoaded

variable [EntryStore σ]

/-- The console after an event. -/
def perform (a : Activity σ) : Event σ → Activity σ
  | .start =>
    { a with
      work := fun index ↦ { a.work index with due := true }
      reading := true
      start := .running }
  | .begin index =>
    match a.console.panels[index]? with
    | some panel =>
      if (a.work index).due then a.put index false ((a.panelAt index panel).perform .load) else a
    | none => a
  | .read answer =>
    if a.reading then
      let (console, error) := a.console.receiveResource answer
      { a with console, reading := false, start := if error.isSome then a.start.fail else a.start }
    else a
  | .finish =>
    if a.start = .running ∧ a.reading = false ∧ a.isLoaded = true then
      { a with console := a.console.selectFirst, start := .returned }
    else a
  | .cancel => { a with start := a.start.fail }
  | .panel index event =>
    match a.console.panels[index]? with
    | some panel =>
      if event.isOwn then a.put index (a.work index).due ((a.panelAt index panel).perform event) else a
    | none => a
  | .select verb =>
    match a.console.select verb with
    | .ok (console, _) => { a with console }
    | .error _ => a
  | .notifyAll trigger =>
    match a.console.notifyAll a.store trigger with
    | .ok (console, store) => { a with console, store }
    | .error _ => a
  | .copy => a
  | .unmount => { a with console := a.console.unmount }
  | .close => { a with console := a.console.close }
  | .elsewhere change => { a with store := change a.store }

/-- The console after some events. -/
def run (a : Activity σ) (events : List (Event σ)) : Activity σ := events.foldl perform a

end Activity

end Console

end VerbForms
