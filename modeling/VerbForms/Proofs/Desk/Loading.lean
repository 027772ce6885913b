import VerbForms.Desk.Step
import VerbForms.Proofs.Console.Startup

/-!
# Loads on a desk

A running system takes a load from the answer to its end in one turn, where a console that starts may
take its steps one by one. The turn does to the panel what the steps do when nothing comes between them.
-/

namespace VerbForms

/-! ### The steps in a row -/

namespace Startup

variable {σ : Type} {s : Startup σ} {index : Nat} {panel : Panel}

theorem put_put (s : Startup σ) (index : Nat) (first second : Panel × Option Panel.LoadStage) :
    (s.put index first).put index second = s.put index second := by
  simp [put, Console.setPanel]

variable [EntryStore σ]

/-- The next step of a load that has just come to a stage. -/
theorem advance_put (up : Upstream) (found : index < s.console.panels.length)
    (there : index < s.loads.length) (after : Panel) (stage : Panel.LoadStage) :
    (s.put index (after, some stage)).advance up index =
      s.put index (stage.next s.store (up.schemaAnswer s.console.gateway after) after) := by
  have panel : (s.put index (after, some stage)).console.panels[index]? = some after := by
    simp [put, Console.setPanel, found]
  have load : (s.put index (after, some stage)).loads[index]? = some (some stage) := by
    simp [put, there]
  rw [advance, panel, load]
  exact put_put s index _ _

/-- A load that has ended does not go on. -/
theorem advance_ended (up : Upstream) (there : index < s.loads.length) (after : Panel) :
    (s.put index (after, none)).advance up index = s.put index (after, none) := by
  have load : (s.put index (after, none)).loads[index]? = some none := by
    simp [put, there]
  rcases advance_cases up (s.put index (after, none)) index with same | ⟨_, _, -, going, -⟩
  · exact same
  · rw [load] at going
    cases going

/-- A load whose steps follow each other. -/
theorem advance_thrice (up : Upstream) (found : s.console.panels[index]? = some panel)
    (asking : s.loads[index]? = some (some .asking)) :
    s.run up [.load index, .load index, .load index] =
      s.put index
        (panel.loadedAlone s.store (up.schemaAnswer s.console.gateway panel), none) := by
  obtain ⟨bound, -⟩ := List.getElem?_eq_some_iff.mp found
  obtain ⟨there, -⟩ := List.getElem?_eq_some_iff.mp asking
  have first : s.advance up index =
      s.put index (Panel.LoadStage.asking.next s.store (up.schemaAnswer s.console.gateway panel) panel) := by
    rw [advance, found, asking]
  change ((s.advance up index).advance up index).advance up index = _
  rw [first, Panel.LoadStage.next, Panel.loadedAlone, Panel.load]
  cases panel.receive (up.schemaAnswer s.console.gateway panel) with
  | mk after receipt =>
    cases receipt with
    | settled => rw [advance_ended up there, advance_ended up there]
    | crashed error => rw [advance_ended up there, advance_ended up there]
    | prepared schema metadata =>
      rw [advance_put up bound there, Panel.LoadStage.next, advance_put up bound there]
      rfl

end Startup

/-! ### The turn of a desk -/

namespace Desk

variable {desk : Desk} {task parent : TaskId} {id : ConsoleId} {index : Nat} {panel : Panel}

/-- A panel that is put at its place and then changed there. -/
theorem modify_setPanel (desk : Desk) (id : ConsoleId) (index : Nat) (panel : Panel)
    (f : Panel → Panel) :
    ((desk.setPanel id index panel).modifyConsole id fun console ↦
        { console with panels := console.panels.modify index f }) =
      desk.setPanel id index (f panel) := by
  have changed (panels : List Panel) :
      (panels.set index panel).modify index f = panels.set index (f panel) := by
    refine List.ext_getElem? fun other ↦ ?_
    rw [List.getElem?_modify, List.getElem?_set, List.getElem?_set]
    split
    · split <;> rfl
    · simp
  rw [setPanel, setPanel, modifyConsole, modifyConsole, modifyConsole, List.modify_modify_eq]
  simp only [Function.comp_def, Console.setPanel, changed]

/-- A load that ends, for the console that has asked for it. -/
theorem endLoad_loading (desk : Desk) (loading : desk.goalOf task = .loading parent id index)
    (panel : Panel) (error : Remote.RequestError) :
    ∃ ending, (desk.setPanel id index panel).endLoad task id index (some error) =
      (desk.setPanel id index (panel.endLoad error)).finish task ending := by
  have goal : (desk.setPanel id index panel).goalOf task = .loading parent id index := loading
  unfold endLoad
  simp only [goal]
  cases error with
  | cancelled => exact ⟨_, rfl⟩
  | _ => exact ⟨_, congrArg (finish · task _) (desk.modify_setPanel id index panel _)⟩

/-- **The answer to a load of a console that starts loads the panel as if alone**, and ends the task. -/
theorem receiveSchema_loading (loading : desk.goalOf task = .loading parent id index)
    (found : desk.panel? id index = some panel) (answer : Except Remote.RequestError Json) :
    ∃ ending, desk.receiveSchema task id index false answer =
      (desk.setPanel id index (panel.loadedAlone desk.store answer)).finish task ending := by
  rw [receiveSchema, found, Panel.loadedAlone, Panel.load]
  dsimp only
  cases panel.receive answer with
  | mk after receipt =>
    cases receipt with
    | settled => exact ⟨_, rfl⟩
    | crashed error => exact desk.endLoad_loading loading after error
    | prepared schema metadata => exact ⟨_, rfl⟩

end Desk

end VerbForms
