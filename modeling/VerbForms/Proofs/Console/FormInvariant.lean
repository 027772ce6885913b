import VerbForms.Proofs.Console.Suite
import VerbForms.Proofs.Panel.FormInvariant

/-!
# What lasts of the forms of a console

A property of forms that lasts whatever happens to one panel (`Panel.Lasting`) is one of all forms that the panels
of a console ever have (`Console.Activity.Carries.run`): what is done to the page as a whole saves forms, and it
shows, hides and unmounts panels, but it does not touch their forms.
-/

namespace VerbForms

namespace Console

variable {σ : Type} {good : Form.Live → Prop} {ready : Panel.LoadStage → Prop} {console after : Console}

theorem carries_of_evolves (h : ∀ panel ∈ console.panels, panel.Carries good)
    (evolves : Evolves Panel.SameForm console after) : ∀ panel ∈ after.panels, panel.Carries good := by
  intro panel mem
  obtain ⟨index, found⟩ := List.getElem?_of_mem mem
  obtain ⟨before, there, same⟩ := forall₂_getElem? evolves.panels found
  exact (h before (List.mem_of_getElem? there)).sameForm same

theorem sameForm_savePanels [EntryStore σ] (store : σ) (panels : List Panel) :
    List.Forall₂ Panel.SameForm panels (savePanels store panels).1 := by
  induction panels generalizing store with
  | nil => exact .nil
  | cons panel panels ih =>
    rw [savePanels]
    exact .cons (panel.sameForm_saveForm store) (ih _)

/-- What happens to panels by themselves is allowed. -/
def Event.Within (allowed : Panel.Event σ → Prop) : Event σ → Prop
  | .begin _ => allowed .load
  | .panel _ event => allowed event
  | _ => True

theorem Event.within_true (event : Event σ) : event.Within fun _ ↦ True := by
  cases event <;> trivial

namespace Activity

variable {a : Activity σ}

/-- The forms of all panels are good, and so are those that loads are about to attach. -/
structure Carries (good : Form.Live → Prop) (ready : Panel.LoadStage → Prop) (a : Activity σ) : Prop where
  panels : ∀ panel ∈ a.console.panels, panel.Carries good
  loads : ∀ index, ∀ stage ∈ (a.work index).loads, ready stage

theorem Carries.panelAt (h : a.Carries good ready) {index : Nat} {panel : Panel}
    (found : a.console.panels[index]? = some panel) : (a.panelAt index panel).Carries good ready :=
  ⟨h.panels panel (List.mem_of_getElem? found), h.loads index⟩

theorem Carries.put (h : a.Carries good ready) (index : Nat) (due : Bool) {b : Panel.Activity σ}
    (carries : b.Carries good ready) : (a.put index due b).Carries good ready where
  panels panel mem := by
    rcases List.mem_or_eq_of_mem_set mem with old | rfl
    · exact h.panels panel old
    · exact carries.panel
  loads other stage mem := by
    rw [Activity.put] at mem
    dsimp only at mem
    split at mem
    · exact carries.loads stage mem
    · exact h.loads other stage mem

/-- The panels of a fresh console have no forms. -/
theorem carries_fresh (good : Form.Live → Prop) (ready : Panel.LoadStage → Prop) {path : String}
    {verbs : List String} {single : Bool} {gateway : Remote.Gateway}
    (made : make path verbs single gateway = .ok console) (store : σ) :
    (fresh console store).Carries good ready := by
  refine ⟨fun panel mem form shown ↦ ?_, fun _ _ ↦ nofun⟩
  rw [((shaped_make made).2.2 panel mem).1] at shown
  cases shown

variable [EntryStore σ] {allowed : Panel.Event σ → Prop}

/-- **Whatever happens to a console, the forms of its panels stay good.** -/
theorem Carries.perform (h : a.Carries good ready) (lasting : Panel.Lasting allowed good ready) {event : Event σ}
    (fine : event.Within allowed) : (a.perform event).Carries good ready := by
  have still {b : Activity σ} (evolves : Evolves Panel.Still a.console b.console) (work : b.work = a.work) :
      b.Carries good ready :=
    ⟨carries_of_evolves h.panels (evolves.mono fun _ _ still ↦ still.sameForm), work ▸ h.loads⟩
  cases event with
  | start => exact ⟨h.panels, h.loads⟩
  | begin index =>
    rw [Activity.perform]
    split
    · next panel found =>
      split
      · exact h.put index false (lasting.step (h.panelAt found) (Panel.Activity.step _ _) fine)
      · exact h
    · exact h
  | read answer =>
    rw [Activity.perform]
    split
    · exact still (a.console.still_receiveResource answer) rfl
    · exact h
  | finish =>
    rw [Activity.perform]
    split
    · exact still a.console.still_selectFirst rfl
    · exact h
  | cancel => exact ⟨h.panels, h.loads⟩
  | panel index event =>
    rw [Activity.perform]
    split
    · next panel found =>
      split
      · exact h.put index _ (lasting.step (h.panelAt found) (Panel.Activity.step _ _) fine)
      · exact h
    · exact h
  | select verb =>
    rw [Activity.perform]
    split
    · next selected =>
      obtain ⟨panel, -, -, rfl, -⟩ := select_eq_ok_iff.mp selected
      exact still (a.console.still_showOnly _) rfl
    · exact h
  | notifyAll trigger =>
    rw [Activity.perform, Console.notifyAll]
    by_cases saves : trigger ∈ Store.saveTriggers
    · rw [if_pos saves]
      exact ⟨carries_of_evolves h.panels ⟨rfl, sameForm_savePanels a.store a.console.panels⟩, h.loads⟩
    · rw [if_neg saves]
      exact h
  | copy => exact h
  | unmount => exact still (evolves_of_map Panel.still_unmount rfl rfl) rfl
  | close => exact still a.console.still_close rfl
  | elsewhere change => exact ⟨h.panels, h.loads⟩

theorem Carries.run (h : a.Carries good ready) (lasting : Panel.Lasting allowed good ready)
    {events : List (Event σ)} (fine : ∀ event ∈ events, event.Within allowed) :
    (a.run events).Carries good ready := by
  induction events generalizing a with
  | nil => exact h
  | cons event rest ih =>
    obtain ⟨first, later⟩ := List.forall_mem_cons.mp fine
    exact ih (h.perform lasting first) later

end Activity

end Console

end VerbForms
