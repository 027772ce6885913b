import VerbForms.Proofs.Panel.Overlap
import VerbForms.Proofs.Panel.Stored

/-!
# What lasts of a form

A property of forms that loads give to the forms they attach, and that entering values and calling listeners
does not take away (`Panel.Lasting`), is one of every form that a panel ever has (`Panel.Lasting.run`): nothing
else that happens to a panel touches its form. A panel with a form always knows what is stored for it.
-/

namespace VerbForms

namespace Panel

variable {σ : Type} {good : Form.Live → Prop} {panel after : Panel}

/-- If the panel has a form then the form is good, and the panel knows what is stored for it. -/
def Carries (good : Form.Live → Prop) (panel : Panel) : Prop :=
  ∀ form, panel.form = some form → good form ∧ panel.state.isSome = true

/-- A panel with the same form, that knows what is stored if it did. -/
structure SameForm (panel after : Panel) : Prop where
  form : after.form = panel.form
  state : after.state.isSome = panel.state.isSome

instance : IsPreorder Panel SameForm where
  refl _ := ⟨rfl, rfl⟩
  trans _ _ _ h more := ⟨more.form.trans h.form, more.state.trans h.state⟩

theorem Still.sameForm (still : Still panel after) : SameForm panel after :=
  ⟨still.form, congrArg Option.isSome still.state⟩

theorem Carries.sameForm (h : panel.Carries good) (same : SameForm panel after) : after.Carries good := by
  rw [Carries, same.form, same.state]
  exact h

theorem Carries.still (h : panel.Carries good) (still : Still panel after) : after.Carries good :=
  h.sameForm still.sameForm

/-- A fresh panel has no form. -/
theorem carries_make (good : Form.Live → Prop) (verb path : String) (single : Bool) :
    (Panel.make verb path single).Carries good := fun _ ↦ nofun

/-- A panel whose form is made of the same knows what is stored if it did. -/
theorem isSome_state_of_basis (same : after.basis = panel.basis) : after.state.isSome = panel.state.isSome := by
  have known := congrArg Option.isSome same
  rwa [basis, basis, Option.isSome_map, Option.isSome_map] at known

section Saving

variable [EntryStore σ]

theorem sameForm_saveForm (panel : Panel) (store : σ) : SameForm panel (panel.saveForm store).1 := by
  obtain ⟨state, same⟩ := panel.saveForm_eq store
  exact ⟨(congrArg Panel.form same :), isSome_state_of_basis (panel.basis_saveForm store)⟩

theorem Carries.afterEmission (h : panel.Carries good) {form : Form.Live} (shown : panel.form = some form)
    (store : σ) {emission : Form.Emission} (fine : good emission.form) :
    (panel.afterEmission store emission).1.Carries good := by
  obtain ⟨state, same⟩ := panel.afterEmission_eq store emission
  have basis : (panel.afterEmission store emission).1.basis = panel.basis :=
    basis_saveAll { panel with form := some emission.form } store emission.events
  intro other there
  obtain rfl : emission.form = other := Option.some.inj ((congrArg Panel.form same :).symm.trans there)
  exact ⟨fine, (isSome_state_of_basis basis).trans (h form shown).2⟩

end Saving

/-- What is good of a form lasts: loads attach good forms, and what is done to a form leaves it good, with the
events that are allowed. A load is ready if the form that it is about to attach is good. -/
structure Lasting [EntryStore σ] (allowed : Event σ → Prop) (good : Form.Live → Prop)
    (ready : LoadStage → Prop) : Prop where
  asking : ready .asking
  received : ∀ {panel after : Panel} {answer : Except Remote.RequestError Json} {schema : Json}
    {metadata : Form.Metadata}, panel.receive answer = (after, .prepared schema metadata) →
      ready (.reading schema metadata)
  read : ∀ {schema : Json} {metadata : Form.Metadata} (store : σ) (key : String),
    ready (.reading schema metadata) → ready (.holding schema metadata (EntryStore.load store key))
  attached : ∀ {schema : Json} {metadata : Form.Metadata} {data : Json},
    ready (.holding schema metadata data) → good (formOf schema metadata data)
  setValue : ∀ {form : Form.Live} {value : Json} {trigger : Option String}, good form →
    allowed (.setValue value trigger) → good (form.setValue value trigger).form
  emit : ∀ {form : Form.Live} {trigger : String}, good form → good (form.emit trigger).form
  listen : ∀ {form : Form.Live} {listener : Form.Listener}, good form → allowed (.listen listener) →
    good (form.listen listener)

/-- The form of the panel is good, and so are those that its loads are about to attach. -/
structure Activity.Carries (good : Form.Live → Prop) (ready : LoadStage → Prop) (a : Activity σ) : Prop where
  panel : a.panel.Carries good
  loads : ∀ stage ∈ a.loads, ready stage

variable {ready : LoadStage → Prop} {a b : Activity σ}

theorem Activity.Carries.setLoad (h : a.Carries good ready) (load : Nat) (carries : after.Carries good)
    {next : Option LoadStage} (holds : ∀ later, next = some later → ready later) :
    (a.setLoad load after next).Carries good ready := by
  cases next with
  | none => exact ⟨carries, fun stage mem ↦ h.loads stage (List.mem_of_mem_eraseIdx mem)⟩
  | some later =>
    refine ⟨carries, fun stage mem ↦ ?_⟩
    rcases List.mem_or_eq_of_mem_set mem with old | rfl
    · exact h.loads stage old
    · exact holds stage rfl

theorem Activity.Carries.keep [EntryStore σ] (h : a.Carries good ready) {emission : Form.Live → Form.Emission}
    (fine : ∀ form, good form → good (emission form).form) :
    (a.keep (a.panel.form.map fun form ↦ a.panel.afterEmission a.store (emission form))).Carries good ready := by
  cases shown : a.panel.form with
  | none => exact h
  | some form => exact ⟨h.panel.afterEmission shown a.store (fine form (h.panel form shown).1), h.loads⟩

namespace Lasting

variable [EntryStore σ] {allowed : Event σ → Prop}

/-! ### Loads -/

theorem attach (lasting : Lasting allowed good ready) (h : panel.Carries good) {schema : Json}
    {metadata : Form.Metadata} {data : Json} (holds : ready (.holding schema metadata data)) :
    (panel.attach schema metadata data).Carries good := by
  rw [Panel.attach]
  split
  · exact h
  · rintro form ⟨⟩
    exact ⟨lasting.attached holds, rfl⟩

theorem next (lasting : Lasting allowed good ready) (h : panel.Carries good) {stage : LoadStage}
    (holds : ready stage) (store : σ) (answer : Except Remote.RequestError Json) :
    (stage.next store answer panel).1.Carries good ∧
      ∀ later, (stage.next store answer panel).2 = some later → ready later := by
  cases stage with
  | asking =>
    have received := panel.still_receive answer
    rw [LoadStage.next]
    cases here : panel.receive answer with
    | mk after receipt =>
      rw [here] at received
      cases receipt with
      | settled => exact ⟨h.still received, by simp⟩
      | crashed error => exact ⟨h.still (received.trans (after.still_endLoad error)), by simp⟩
      | prepared schema metadata =>
        refine ⟨h.still received, ?_⟩
        rintro later ⟨⟩
        exact lasting.received here
  | reading schema metadata =>
    refine ⟨h, ?_⟩
    rintro later ⟨⟩
    exact lasting.read store panel.key holds
  | holding schema metadata data =>
    refine ⟨lasting.attach h holds, ?_⟩
    rintro later ⟨⟩

/-! ### Steps and runs -/

/-- **Whatever happens to a panel, its form stays good**, and so do those that its loads are about to attach. -/
theorem step (lasting : Lasting allowed good ready) (h : a.Carries good ready) {event : Event σ}
    (step : a.Step event b) (fine : allowed event) : b.Carries good ready := by
  cases step with
  | idle => exact h
  | load fresh =>
    refine ⟨h.panel, fun stage mem ↦ ?_⟩
    rcases List.mem_append.mp mem with old | new
    · exact h.loads stage old
    · rw [List.mem_singleton.mp new]
      exact lasting.asking
  | proceed found answer =>
    obtain ⟨carries, holds⟩ := lasting.next h.panel (h.loads _ (List.mem_of_getElem? found)) a.store answer
    exact h.setLoad _ carries holds
  | crash there error => exact h.setLoad _ (h.panel.still (a.panel.still_endLoad error)) (by simp)
  | abandon load => exact h.setLoad load h.panel (by simp)
  | submit rendered =>
    exact ⟨h.panel.still ⟨⟨⟨rfl, rfl, rfl⟩, fun _ ↦ by rw [isRendered, rendered]; rfl⟩, rfl, rfl⟩, h.loads⟩
  | answer underWay answer => exact ⟨h.panel.still (a.panel.still_endSubmit answer), h.loads⟩
  | setValue value trigger => exact h.keep fun form proper ↦ lasting.setValue proper fine
  | emit trigger => exact h.keep fun form proper ↦ lasting.emit proper
  | listen listener =>
    refine ⟨fun form shown ↦ ?_, h.loads⟩
    obtain ⟨old, found, rfl⟩ := Option.map_eq_some_iff.mp shown
    exact ⟨lasting.listen (h.panel old found).1 fine, (h.panel old found).2⟩
  | notify saves => exact ⟨h.panel.sameForm (a.panel.sameForm_saveForm a.store), h.loads⟩
  | select displayed => exact ⟨h.panel.still ⟨⟨⟨rfl, rfl, rfl⟩, id⟩, rfl, rfl⟩, h.loads⟩
  | deselect => exact ⟨h.panel.still ⟨⟨⟨rfl, rfl, rfl⟩, id⟩, rfl, rfl⟩, h.loads⟩
  | report message => exact ⟨h.panel.still (still_withdraw (.inr rfl) a.panel _), h.loads⟩
  | unmount => exact ⟨h.panel.still a.panel.still_unmount, h.loads⟩
  | elsewhere change messages => exact ⟨h.panel, h.loads⟩

theorem run (lasting : Lasting allowed good ready) (h : a.Carries good ready) {events : List (Event σ)}
    (fine : ∀ event ∈ events, allowed event) : (a.run events).Carries good ready := by
  induction events generalizing a with
  | nil => exact h
  | cons event rest ih =>
    obtain ⟨first, later⟩ := List.forall_mem_cons.mp fine
    exact ih (lasting.step h (a.step event) first) later

end Lasting

/-- Of every form it can be said that its panel knows what is stored for it. -/
theorem lasting_true [EntryStore σ] :
    Lasting (fun _ : Event σ ↦ True) (fun _ ↦ True) (fun _ ↦ True) where
  asking := trivial
  received _ := trivial
  read _ _ _ := trivial
  attached _ := trivial
  setValue _ _ := trivial
  emit _ := trivial
  listen _ _ := trivial

theorem Activity.carries_start (good : Form.Live → Prop) (ready : LoadStage → Prop) (verb path : String)
    (single : Bool) (store : σ) (alerts : List String) :
    (start (Panel.make verb path single) store alerts).Carries good ready :=
  ⟨carries_make good verb path single, fun _ ↦ nofun⟩

end Panel

end VerbForms
