import VerbForms.Proofs.Console.Evolution
import VerbForms.Proofs.Store.LastSaved

/-!
# A panel and its entry

A panel reads and writes the store under its own key alone. What happens to it therefore leaves the texts
under other keys as they are (`Activity.Step.agreesOn`), and it leaves two panels alike that differ at
most in being visible, where the stores agree on their key (`Activity.Twins.perform`).
-/

namespace VerbForms

/-! ### Stores -/

namespace Store

variable {store other last : Store} {key : String}

/-- The stores have the same text under a key, and both or none of them can be written. -/
structure AgreesOn (key : String) (store other : Store) : Prop where
  raw : other.raw? key = store.raw? key
  missing : other = .database none ↔ store = .database none

theorem AgreesOn.refl (key : String) (store : Store) : AgreesOn key store store := ⟨rfl, .rfl⟩

theorem AgreesOn.symm (h : AgreesOn key store other) : AgreesOn key other store :=
  ⟨h.raw.symm, h.missing.symm⟩

theorem AgreesOn.trans (h : AgreesOn key store other) (more : AgreesOn key other last) :
    AgreesOn key store last :=
  ⟨more.raw.trans h.raw, more.missing.trans h.missing⟩

theorem AgreesOn.load (h : AgreesOn key store other) : other.load key = store.load key := by
  rw [Store.load, Store.load, h.raw]

/-- A store without its table takes no value with content. -/
theorem save_missing (key : String) (value : Json) :
    (Store.database none).save key value =
      if value.isEmpty then .ok (.database none) else .error .unavailable := rfl

/-- A save under the key goes the same way in both stores. -/
theorem AgreesOn.save (h : AgreesOn key store other) (value : Json) :
    (∃ error, store.save key value = .error error ∧ other.save key value = .error error) ∨
      ∃ next after, store.save key value = .ok next ∧ other.save key value = .ok after ∧
        AgreesOn key next after := by
  by_cases missing : store = .database none
  -- Without their tables both stores refuse the same values.
  · rw [h.missing.mpr missing, missing, save_missing]
    split
    · exact .inr ⟨_, _, rfl, rfl, .refl key _⟩
    · exact .inl ⟨_, rfl, rfl⟩
  · obtain ⟨next, saved, available, raws⟩ := exists_save missing key value
    obtain ⟨after, savedOther, availableOther, rawsOther⟩ :=
      exists_save (mt h.missing.mp missing) key value
    refine .inr ⟨next, after, saved, savedOther, ?_, iff_of_false availableOther available⟩
    rw [raws, rawsOther, h.raw]

/-- A save under another key leaves the text as it is. -/
theorem agreesOn_save {place : String} (apart : place ≠ key) {value : Json}
    (saved : store.save place value = .ok other) : AgreesOn key store other := by
  by_cases missing : store = .database none
  · rw [missing, save_missing] at saved
    split at saved
    · cases saved
      rw [missing]
      exact .refl key _
    · cases saved
  · obtain ⟨next, same, available, raws⟩ := exists_save missing place value
    obtain rfl : next = other := Except.ok.inj (same.symm.trans saved)
    refine ⟨?_, iff_of_false available missing⟩
    rw [raws, if_neg fun here ↦ apart here.2]

end Store

namespace Panel

/-! ### What a panel leaves alone -/

theorem Alike.refl (panel : Panel) : Alike panel panel := ⟨rfl, rfl, rfl⟩

theorem Alike.symm {panel after : Panel} (h : Alike panel after) : Alike after panel :=
  ⟨h.verb.symm, h.path.symm, h.single.symm⟩

theorem Remains.alike {panel after : Panel} (h : Remains panel after) : Alike panel after :=
  ⟨h.verb, h.path, h.single⟩

instance : IsPreorder Panel Alike where
  refl := .refl
  trans _ _ _ := .trans

theorem alike_keep {σ : Type} [EntryStore σ] (a : Activity σ) (emission : Form.Live → Form.Emission) :
    Alike a.panel (a.keep (a.panel.form.map fun form ↦
      a.panel.afterEmission a.store (emission form))).panel := by
  obtain ⟨state, same⟩ := a.panel_keep emission
  rw [same]
  exact ⟨rfl, rfl, rfl⟩

/-- A panel keeps its verb and its path whatever happens. -/
theorem Activity.Step.alike {σ : Type} [EntryStore σ] {a b : Activity σ} {event : Event σ}
    (step : a.Step event b) : Alike a.panel b.panel := by
  cases step with
  | @proceed load stage found answer =>
    rw [Activity.panel_setLoad]
    exact (remains_next stage a.store answer a.panel).alike
  | crash there error => exact (a.panel.remains_endLoad error).alike
  | answer underWay answer => exact (a.panel.still_endSubmit answer).toAlike
  | setValue value trigger => exact alike_keep a (·.setValue value trigger)
  | emit trigger => exact alike_keep a (·.emit trigger)
  | notify saves =>
    obtain ⟨state, same⟩ := a.panel.saveForm_eq a.store
    rw [same]
    exact ⟨rfl, rfl, rfl⟩
  | report message => exact (a.panel.remains_withdraw _ _).alike
  | _ => exact ⟨rfl, rfl, rfl⟩

section Apart

variable {panel : Panel} {store : Store} {key : String}

theorem agreesOn_save (apart : panel.key ≠ key) (store : Store) (value : Json) :
    store.AgreesOn key (panel.save store value).2 := by
  rw [save]
  split
  · exact .refl key store
  · split
    · exact .refl key store
    · next next saved =>
      split <;> exact Store.agreesOn_save apart saved

theorem agreesOn_saveForm (apart : panel.key ≠ key) (store : Store) :
    store.AgreesOn key (panel.saveForm store).2 := by
  rw [saveForm]
  split
  · exact agreesOn_save apart store _
  · exact .refl key store

theorem agreesOn_saveAll (apart : panel.key ≠ key) (store : Store) (events : List Form.Event) :
    store.AgreesOn key (panel.saveAll store events).2 := by
  induction events generalizing panel store with
  | nil => exact .refl key store
  | cons event events ih =>
    cases event with
    | saveAsked trigger value =>
      obtain ⟨_, saved⟩ := panel.save_eq store value
      rw [saveAll_cons_saveAsked]
      refine (agreesOn_save apart store value).trans (ih ?_ _)
      rw [saved]
      exact apart
    | _ => exact ih apart store

namespace Activity

variable {a b : Activity Store} {event : Event Store}

theorem store_setLoad (a : Activity Store) (load : Nat) (after : Panel) (next : Option LoadStage) :
    (a.setLoad load after next).store = a.store := by
  cases next <;> rfl

theorem agreesOn_keep (apart : a.panel.key ≠ key) (emission : Form.Live → Form.Emission) :
    a.store.AgreesOn key (a.keep (a.panel.form.map fun form ↦
      a.panel.afterEmission a.store (emission form))).store := by
  cases a.panel.form with
  | none => exact .refl key a.store
  | some form =>
    have saved := @agreesOn_saveAll { a.panel with form := some (emission form).form } key apart a.store
    exact saved (emission form).events

/-- What happens to a panel by itself changes no other entry. -/
theorem Step.agreesOn (step : Step a event b) (apart : a.panel.key ≠ key) (own : event.isOwn = true) :
    a.store.AgreesOn key b.store := by
  cases step with
  | proceed found answer =>
    rw [store_setLoad]
    exact .refl key a.store
  | setValue value trigger => exact agreesOn_keep apart (·.setValue value trigger)
  | emit trigger => exact agreesOn_keep apart (·.emit trigger)
  | notify saves => exact agreesOn_saveForm apart a.store
  | elsewhere => cases own
  | _ => exact .refl key a.store

end Activity

end Apart

/-! ### Panels that differ at most in being visible -/

/-- The panels differ at most in being visible. -/
def Twins (panel other : Panel) : Prop := ∃ visible, other = { panel with visible }

section Twins

variable {panel other : Panel}

theorem Twins.withdraw (h : Twins panel other) (phase : Phase) (problem : PanelProblem) :
    Twins (panel.withdraw phase problem) (other.withdraw phase problem) := by
  obtain ⟨visible, rfl⟩ := h
  by_cases gone : panel.phase = .unmounted
  · rw [Panel.withdraw, Panel.withdraw, if_pos gone, if_pos gone]
    exact ⟨visible, rfl⟩
  · rw [Panel.withdraw, Panel.withdraw, if_neg gone, if_neg gone]
    exact ⟨false, rfl⟩

theorem Twins.endLoad (h : Twins panel other) (error : Remote.RequestError) :
    Twins (panel.endLoad error) (other.endLoad error) := by
  have fail (problem : PanelProblem) := h.withdraw .failed problem
  obtain ⟨visible, rfl⟩ := h
  cases error with
  | cancelled => exact ⟨visible, rfl⟩
  | _ => exact fail _

theorem Twins.attach (h : Twins panel other) (schema : Json) (metadata : Form.Metadata) (data : Json) :
    Twins (panel.attach schema metadata data) (other.attach schema metadata data) := by
  obtain ⟨visible, rfl⟩ := h
  rw [Panel.attach, Panel.attach]
  split <;> exact ⟨visible, rfl⟩

/-- The same answer to the requests of both panels leads to the same. -/
theorem Twins.receive (h : Twins panel other) (answer : Except Remote.RequestError Json) :
    Twins (panel.receive answer).1 (other.receive answer).1 ∧
      (other.receive answer).2 = (panel.receive answer).2 := by
  have hide (problem : PanelProblem) := h.withdraw .hidden problem
  obtain ⟨visible, rfl⟩ := h
  cases answer with
  | error error =>
    cases error with
    | exchange error => exact ⟨hide _, rfl⟩
    | _ => exact ⟨⟨visible, rfl⟩, rfl⟩
  | ok schema =>
    by_cases gone : panel.phase = .unmounted
    · rw [Panel.receive, Panel.receive, if_pos gone, if_pos gone]
      exact ⟨⟨visible, rfl⟩, rfl⟩
    · rw [Panel.receive, Panel.receive, if_neg gone, if_neg gone]
      split
      · rw [receiveSchema, receiveSchema]
        split <;> exact ⟨⟨visible, rfl⟩, rfl⟩
      · exact ⟨hide _, rfl⟩

theorem Twins.freed (h : Twins panel other) : Twins panel.freed other.freed := by
  obtain ⟨visible, rfl⟩ := h
  rw [Panel.freed, Panel.freed]
  split <;> exact ⟨visible, rfl⟩

theorem Twins.endSubmit (h : Twins panel other) (answer : Except Remote.RequestError Json) :
    Twins (panel.endSubmit answer).panel (other.endSubmit answer).panel := by
  have free := h.freed
  obtain ⟨visible, rfl⟩ := h
  cases answer with
  | error error => cases error <;> exact free
  | ok response =>
    by_cases gone : panel.phase = .unmounted
    · simp only [Panel.endSubmit, if_pos gone]
      exact ⟨visible, rfl⟩
    · simp only [Panel.endSubmit, if_neg gone]
      obtain ⟨seen, same⟩ := free
      exact ⟨seen, by rw [same]⟩

theorem Twins.form (h : Twins panel other) : other.form = panel.form := by
  obtain ⟨visible, rfl⟩ := h
  rfl

theorem Twins.key (h : Twins panel other) : other.key = panel.key := by
  obtain ⟨visible, rfl⟩ := h
  rfl

theorem Twins.phase (h : Twins panel other) : other.phase = panel.phase := by
  obtain ⟨visible, rfl⟩ := h
  rfl

end Twins

/-! ### Twins and their stores -/

section Stores

variable {panel other : Panel} {store place : Store} {key : String}

/-- A step of a load does the same to both panels if they find the same under their key. -/
theorem Twins.next (h : Twins panel other) (same : place.load panel.key = store.load panel.key)
    (stage : LoadStage) (answer : Except Remote.RequestError Json) :
    Twins (stage.next store answer panel).1 (stage.next place answer other).1 ∧
      (stage.next place answer other).2 = (stage.next store answer panel).2 := by
  cases stage with
  | asking =>
    obtain ⟨twins, receipts⟩ := h.receive answer
    rw [LoadStage.next, LoadStage.next]
    cases here : panel.receive answer with
    | mk after receipt =>
      cases there : other.receive answer with
      | mk last found =>
        rw [here, there] at twins receipts
        obtain rfl : found = receipt := receipts
        cases found with
        | crashed error => exact ⟨twins.endLoad error, rfl⟩
        | _ => exact ⟨twins, rfl⟩
  | reading schema metadata =>
    refine ⟨h, ?_⟩
    have loaded : EntryStore.load place other.key = EntryStore.load store panel.key :=
      h.key.symm ▸ same
    rw [LoadStage.next, LoadStage.next, loaded]
  | holding schema metadata data => exact ⟨h.attach schema metadata data, rfl⟩

/-- What comes of a load depends on the store under the key alone. -/
theorem load_eq (agree : store.AgreesOn panel.key place) (answer : Except Remote.RequestError Json) :
    panel.load place answer = panel.load store answer := by
  have kept := (panel.still_receive answer).key
  rw [Panel.load, Panel.load]
  cases received : panel.receive answer with
  | mk after receipt =>
    rw [received] at kept
    cases receipt with
    | prepared schema metadata =>
      have loaded : EntryStore.load place after.key = EntryStore.load store after.key := by
        rw [kept]
        exact agree.load
      dsimp only
      rw [loaded]
    | _ => rfl

/-- Panels with a key that differ at most in being visible, with stores that agree on the key. -/
structure TwinsAt (key : String) (x y : Panel × Store) : Prop where
  own : x.1.key = key
  panel : Twins x.1 y.1
  store : x.2.AgreesOn key y.2

theorem TwinsAt.save {x y : Panel × Store} (h : TwinsAt key x y) (value : Json) :
    TwinsAt key (x.1.save x.2 value) (y.1.save y.2 value) := by
  obtain ⟨panel, store⟩ := x
  obtain ⟨other, place⟩ := y
  obtain ⟨rfl, ⟨visible, rfl⟩, agree⟩ := h
  dsimp only at agree ⊢
  rw [Panel.save, Panel.save]
  by_cases gone : panel.phase = .unmounted
  · rw [if_pos gone, if_pos gone]
    exact ⟨rfl, ⟨visible, rfl⟩, agree⟩
  · rw [if_neg gone, if_neg gone]
    rcases agree.save value with ⟨error, failed, failedToo⟩ | ⟨next, after, saved, savedToo, agree⟩
    · have failed : EntryStore.save store panel.key value = .error error := failed
      have failedToo : EntryStore.save place { panel with visible }.key value = .error error := failedToo
      rw [failed, failedToo]
      exact ⟨rfl, ⟨visible, rfl⟩, agree⟩
    · have saved : EntryStore.save store panel.key value = .ok next := saved
      have savedToo : EntryStore.save place { panel with visible }.key value = .ok after := savedToo
      rw [saved, savedToo]
      dsimp only
      split <;> exact ⟨rfl, ⟨visible, rfl⟩, agree⟩

theorem TwinsAt.saveForm {x y : Panel × Store} (h : TwinsAt key x y) :
    TwinsAt key (x.1.saveForm x.2) (y.1.saveForm y.2) := by
  rw [Panel.saveForm, Panel.saveForm, h.panel.form]
  split
  · exact h.save _
  · exact h

theorem TwinsAt.saveAll {x y : Panel × Store} (h : TwinsAt key x y) (events : List Form.Event) :
    TwinsAt key (x.1.saveAll x.2 events) (y.1.saveAll y.2 events) := by
  induction events generalizing x y with
  | nil => exact h
  | cons event events ih =>
    cases event with
    | saveAsked trigger value => exact ih (h.save value)
    | _ => exact ih h

end Stores

/-! ### Twins at work -/

namespace Activity

variable {a b : Activity Store} {key : String}

/-- Panels at work with a key that differ at most in being visible, with the same under way and with
stores that agree on the key. -/
structure Twins (key : String) (a b : Activity Store) : Prop where
  here : TwinsAt key (a.panel, a.store) (b.panel, b.store)
  loads : b.loads = a.loads
  sending : b.sending = a.sending

theorem Twins.setLoad (h : Twins key a b) (load : Nat) {after last : Panel}
    (same : after.key = key) (twins : Panel.Twins after last) (next : Option LoadStage) :
    Twins key (a.setLoad load after next) (b.setLoad load last next) := by
  cases next with
  | none => exact ⟨⟨same, twins, h.here.store⟩, by simp [Activity.setLoad, h.loads], h.sending⟩
  | some stage => exact ⟨⟨same, twins, h.here.store⟩, by simp [Activity.setLoad, h.loads], h.sending⟩

/-- Emissions of the form. -/
theorem Twins.keep (h : Twins key a b) (emission : Form.Live → Form.Emission) :
    Twins key
      (a.keep (a.panel.form.map fun form ↦ a.panel.afterEmission a.store (emission form)))
      (b.keep (b.panel.form.map fun form ↦ b.panel.afterEmission b.store (emission form))) := by
  obtain ⟨⟨same, panel, store⟩, loads, sending⟩ := h
  rw [panel.form]
  cases a.panel.form with
  | none => exact ⟨⟨same, panel, store⟩, loads, sending⟩
  | some form =>
    -- Both panels have the form as the emission leaves it before anything is saved.
    have begun : TwinsAt key ({ a.panel with form := some (emission form).form }, a.store)
        ({ b.panel with form := some (emission form).form }, b.store) := by
      obtain ⟨visible, twin⟩ : Panel.Twins a.panel b.panel := panel
      exact ⟨same, ⟨visible, by dsimp only; rw [twin]⟩, store⟩
    exact ⟨begun.saveAll (emission form).events, loads, sending⟩

/-- **What happens to twins leaves them twins.** -/
theorem Twins.perform (h : Twins key a b) {event : Event Store}
    (inside : event.isOwn = true ∨ event.isLoad = true) :
    Twins key (a.perform event) (b.perform event) := by
  obtain ⟨⟨same, panel, store⟩, loads, sending⟩ := id h
  cases event with
  | load =>
    rw [Activity.perform, Activity.perform, panel.phase]
    split
    · exact ⟨⟨same, panel, store⟩, by rw [loads], sending⟩
    · exact h
  | proceed load answer =>
    rw [Activity.perform, Activity.perform, loads]
    split
    · exact h
    · next stage _ =>
      obtain ⟨twins, stages⟩ := panel.next (same.symm ▸ store.load) stage answer
      dsimp only
      rw [stages]
      exact h.setLoad load ((remains_next stage a.store answer a.panel).key.trans same) twins _
  | crash load error =>
    rw [Activity.perform, Activity.perform, loads]
    split
    · exact h.setLoad load ((a.panel.remains_endLoad error).key.trans same) (panel.endLoad error) none
    · exact h
  | abandon load => exact h.setLoad load same panel none
  | submit =>
    rw [perform_submit, perform_submit, panel.phase, panel.form]
    split
    · obtain ⟨visible, twin⟩ : Panel.Twins a.panel b.panel := panel
      exact ⟨⟨same, ⟨visible, by dsimp only; rw [twin]⟩, store⟩, loads, by rw [sending]⟩
    · exact h
  | answer answer =>
    rw [Activity.perform, Activity.perform, sending]
    split
    · exact h
    · exact ⟨⟨(a.panel.still_endSubmit answer).key.trans same, panel.endSubmit answer, store⟩, loads, rfl⟩
  | setValue value trigger => exact h.keep (·.setValue value trigger)
  | emit trigger => exact h.keep (·.emit trigger)
  | listen listener =>
    obtain ⟨visible, twin⟩ : Panel.Twins a.panel b.panel := panel
    exact ⟨⟨same, ⟨visible, by rw [Activity.perform, Activity.perform, twin]⟩, store⟩, loads, sending⟩
  | notify trigger =>
    rw [Activity.perform, Activity.perform, Panel.notify, Panel.notify]
    split
    · exact ⟨h.here.saveForm, loads, sending⟩
    · exact h
  | _ => simp [Event.isOwn, Event.isLoad] at inside

end Activity

end Panel

end VerbForms
