import VerbForms.Proofs.Panel.Run

/-!
# What an event does

An event leads from one activity to another by a rule (`Activity.Step`), which has the condition under which
the event happens. One that cannot happen where it stands changes nothing. Every event follows its rule
(`Activity.step`); what an event keeps or changes is therefore shown by the rules, and not by how they are
carried out.
-/

namespace VerbForms

namespace Panel

variable {σ : Type} {panel after : Panel}

theorem startSubmit_eq_sending {payload : Json} (sent : panel.startSubmit = .sending after payload) :
    panel.phase = .rendered ∧ after = { panel with phase := .submitting } := by
  unfold startSubmit at sent
  split at sent
  · cases sent
  · split at sent
    · split at sent
      · next rendered =>
        cases sent
        exact ⟨rendered, rfl⟩
      · cases sent
    · cases sent

namespace Activity

theorem panel_setLoad (a : Activity σ) (load : Nat) (after : Panel) (next : Option LoadStage) :
    (a.setLoad load after next).panel = after := by
  cases next <;> rfl

theorem loads_keep (a : Activity σ) (saved : Option (Panel × σ)) : (a.keep saved).loads = a.loads := by
  cases saved <;> rfl

/-- Whether an event can happen where it stands. -/
def Enabled (a : Activity σ) : Event σ → Prop
  | .load => a.panel.phase = .uninitialized
  | .proceed load _ | .crash load _ => load < a.loads.length
  | .submit => a.panel.phase = .rendered ∧ a.panel.form.isSome
  | .answer _ => a.sending ≠ 0
  | .notify trigger => trigger ∈ Store.saveTriggers
  | .select => a.panel.isRendered
  | _ => True

variable [EntryStore σ]

/-- A submission starts if the panel has its form to show. -/
theorem perform_submit (a : Activity σ) :
    a.perform .submit =
      if a.panel.phase = .rendered ∧ a.panel.form.isSome then
        { a with panel := { a.panel with phase := .submitting }, sending := a.sending + 1 }
      else a := by
  rw [Activity.perform, startSubmit]
  by_cases rendered : a.panel.phase = .rendered
  · cases form : a.panel.form <;> simp [rendered, form]
  · cases form : a.panel.form <;> by_cases busy : a.panel.phase = .submitting <;> simp [rendered, busy]

/-- The rules by which an event leads from one activity to another. -/
inductive Step (a : Activity σ) : Event σ → Activity σ → Prop
  | idle {event : Event σ} (disabled : ¬ a.Enabled event) : Step a event a
  | load (fresh : a.panel.phase = .uninitialized) : Step a .load { a with loads := a.loads ++ [.asking] }
  | proceed {load : Nat} {stage : LoadStage} (found : a.loads[load]? = some stage)
      (answer : Except Remote.RequestError Json) :
      Step a (.proceed load answer)
        (a.setLoad load (stage.next a.store answer a.panel).1 (stage.next a.store answer a.panel).2)
  | crash {load : Nat} (there : load < a.loads.length) (error : Remote.RequestError) :
      Step a (.crash load error) (a.setLoad load (a.panel.endLoad error) none)
  | abandon (load : Nat) : Step a (.abandon load) (a.setLoad load a.panel none)
  | submit {form : Form.Live} (rendered : a.panel.phase = .rendered) (shown : a.panel.form = some form) :
      Step a .submit { a with panel := { a.panel with phase := .submitting }, sending := a.sending + 1 }
  | answer (underWay : a.sending ≠ 0) (answer : Except Remote.RequestError Json) :
      Step a (.answer answer)
        { a with
          panel := (a.panel.endSubmit answer).panel
          alerts := a.alerts ++ (a.panel.endSubmit answer).alert.toList
          sending := a.sending - 1 }
  | setValue (value : Json) (trigger : Option String) :
      Step a (.setValue value trigger)
        (a.keep (a.panel.form.map fun form ↦ a.panel.afterEmission a.store (form.setValue value trigger)))
  | emit (trigger : String) :
      Step a (.emit trigger)
        (a.keep (a.panel.form.map fun form ↦ a.panel.afterEmission a.store (form.emit trigger)))
  | listen (listener : Form.Listener) :
      Step a (.listen listener)
        { a with panel := { a.panel with form := a.panel.form.map (·.listen listener) } }
  | notify {trigger : String} (saves : trigger ∈ Store.saveTriggers) :
      Step a (.notify trigger)
        { a with panel := (a.panel.saveForm a.store).1, store := (a.panel.saveForm a.store).2 }
  | select (displayed : a.panel.isRendered = true) :
      Step a .select { a with panel := { a.panel with visible := true } }
  | deselect : Step a .deselect { a with panel := { a.panel with visible := false } }
  | report (message : String) :
      Step a (.report message) { a with panel := a.panel.markFailed (.reported message) }
  | unmount : Step a .unmount { a with panel := a.panel.unmount }
  | elsewhere (change : σ → σ) (messages : List String) :
      Step a (.elsewhere change messages)
        { a with store := change a.store, alerts := a.alerts ++ messages }

/-- **Every event follows its rule.** -/
theorem step (a : Activity σ) (event : Event σ) : Step a event (a.perform event) := by
  cases event with
  | load =>
    rw [Activity.perform]
    split
    · next fresh => exact .load fresh
    · next begun => exact .idle begun
  | proceed load answer =>
    rw [Activity.perform]
    split
    · next missing => exact .idle (Nat.not_lt.mpr (List.getElem?_eq_none_iff.mp missing))
    · next stage found => exact .proceed found answer
  | crash load error =>
    rw [Activity.perform]
    split
    · next there => exact .crash there error
    · next missing => exact .idle missing
  | abandon load => exact .abandon load
  | submit =>
    rw [perform_submit]
    split
    · next ready =>
      obtain ⟨form, shown⟩ := Option.isSome_iff_exists.mp ready.2
      exact .submit ready.1 shown
    · next unready => exact .idle unready
  | answer answer =>
    rw [Activity.perform]
    split
    · next idle => exact .idle (not_not_intro idle)
    · next underWay => exact .answer underWay answer
  | setValue value trigger => exact .setValue value trigger
  | emit trigger => exact .emit trigger
  | listen listener => exact .listen listener
  | notify trigger =>
    rw [Activity.perform, Panel.notify]
    split
    · next saves => exact .notify saves
    · next unknown => exact .idle unknown
  | select =>
    rw [Activity.perform]
    split
    · next displayed => exact .select displayed
    · next away => exact .idle away
  | deselect => exact .deselect
  | report message => exact .report message
  | unmount => exact .unmount
  | elsewhere change messages => exact .elsewhere change messages

/-- An emission changes the form, and the state as its saves do. -/
theorem panel_keep (a : Activity σ) (emission : Form.Live → Form.Emission) :
    ∃ state, (a.keep (a.panel.form.map fun form ↦
      a.panel.afterEmission a.store (emission form))).panel =
        { a.panel with form := a.panel.form.map fun form ↦ (emission form).form, state } := by
  cases here : a.panel.form with
  | none =>
    have same : { a.panel with form := none } = a.panel := by rw [← here]
    exact ⟨a.panel.state, same.symm⟩
  | some form => exact a.panel.afterEmission_eq a.store (emission form)

end Activity

end Panel

end VerbForms
