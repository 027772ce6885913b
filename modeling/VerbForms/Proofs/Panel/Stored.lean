import VerbForms.Proofs.Console.Evolution
import VerbForms.Proofs.Store.LastSaved

/-!
# What a panel knows to be stored

The data in the state of a panel and the entry in the store are kept apart: the store has a text, and the
panel has a live value. From the end of its load on they agree, whatever is done with the form, and though
any save may fail (`Activity.data_is_stored`).
-/

namespace VerbForms

/-! ### Stores whose saves may fail -/

namespace Store

/-- A store whose saves may fail; one that fails leaves the store as it is. -/
structure Fallible where
  store : Store
  /-- Whether the save of a value under a key fails, as long as the store is as it is. -/
  fails : Store → String → Json → Bool

namespace Fallible

variable {s next : Fallible} {key : String} {value : Json}

/-- The value under a key. -/
def load (s : Fallible) (key : String) : Json := s.store.load key

/-- Save a value under a key, unless that fails. -/
def save (s : Fallible) (key : String) (value : Json) : Except StoreError Fallible :=
  if s.fails s.store key value then .error .unavailable
  else (fun store ↦ { s with store }) <$> s.store.save key value

instance : EntryStore Fallible := ⟨load, save⟩

theorem load_of_save (storable : value.Storable) (saved : s.save key value = .ok next) :
    next.load key = if value.isEmpty then s.load key else value := by
  rw [save] at saved
  split at saved
  · cases saved
  · obtain ⟨store, written, rfl⟩ := map_eq_ok.mp saved
    exact Store.load_of_save storable written

end Fallible

end Store

/-! ### Values that are set -/

namespace Form

mutual

/-- The values that the action can set can be stored. -/
def Action.Storable : Action → Prop
  | .listen _ actions => ActionsStorable actions
  | .set value => value.Storable
  | _ => True

/-- The values that the actions can set can be stored. -/
def ActionsStorable : List Action → Prop
  | [] => True
  | action :: rest => Action.Storable action ∧ ActionsStorable rest

end

theorem actionsStorable_iff {actions : List Action} :
    ActionsStorable actions ↔ ∀ action ∈ actions, action.Storable := by
  induction actions with
  | nil => exact iff_of_true trivial (List.forall_mem_nil _)
  | cons action rest ih => rw [ActionsStorable, ih, List.forall_mem_cons]

/-- The values that the listener can set can be stored. -/
def Listener.Storable (listener : Listener) : Prop := ∀ action ∈ listener.actions, action.Storable

/-- The value of the form and those that its listeners can set can be stored. -/
structure Live.Storable (form : Live) : Prop where
  value : form.value.Storable
  listeners : ∀ listener ∈ form.listeners, listener.Storable

/-- The form and the values that are to be saved can be stored. -/
structure Emission.Storable (run : Emission) : Prop where
  form : run.form.Storable
  saves : ∀ trigger value, Event.saveAsked trigger value ∈ run.events → value.Storable

namespace Live

variable {form : Live} {emit : String → Live → Emission} {run : Emission}

theorem Storable.idle (h : form.Storable) : (Emission.idle form).Storable := ⟨h, fun _ _ ↦ nofun⟩

theorem Storable.set (h : form.Storable) {value : Json} (storable : value.Storable) :
    Live.Storable { form with value } := ⟨storable, h.listeners⟩

theorem Storable.listen (h : form.Storable) {listener : Listener} (storable : listener.Storable) :
    (form.listen listener).Storable where
  value := h.value
  listeners other mem := by
    rcases List.mem_append.mp mem with old | new
    · exact h.listeners other old
    · rw [List.mem_singleton.mp new]
      exact storable

theorem storable_andThen (h : run.Storable) {next : Live → Emission}
    (more : ∀ form : Live, form.Storable → (next form).Storable) : (run.andThen next).Storable := by
  rw [Emission.andThen]
  split
  · exact h
  · have later := more run.form h.form
    refine ⟨later.form, fun trigger value mem ↦ ?_⟩
    rcases List.mem_append.mp mem with before | after
    · exact h.saves trigger value before
    · exact later.saves trigger value after

/-- Steps one after the other, each of which keeps values that can be stored. -/
theorem storable_foldl {α : Type} {step : α → Live → Emission} {steps : List α}
    (kept : ∀ a ∈ steps, ∀ form : Live, form.Storable → (step a form).Storable) (h : run.Storable) :
    (steps.foldl (fun run a ↦ run.andThen (step a)) run).Storable := by
  induction steps generalizing run with
  | nil => exact h
  | cons a rest ih =>
    obtain ⟨first, others⟩ := List.forall_mem_cons.mp kept
    exact ih others (storable_andThen h first)

/-- Emissions within the ones in hand keep values that can be stored. -/
def KeepsStorable (emit : String → Live → Emission) : Prop :=
  ∀ trigger form, Live.Storable form → (emit trigger form).Storable

theorem storable_perform (kept : KeepsStorable emit) {action : Action} (storable : action.Storable)
    (h : form.Storable) : (perform emit action form).Storable := by
  cases action with
  | record name => exact ⟨h, by simp [perform]⟩
  | observe => exact ⟨h, by simp [perform]⟩
  | listen trigger actions =>
    have inner : Listener.Storable ⟨trigger, actions⟩ := actionsStorable_iff.mp storable
    exact (h.listen inner).idle
  | emit trigger => exact kept trigger form h
  | set value => exact (h.set storable).idle
  | raise reason => exact ⟨h, by simp [perform]⟩
  | save trigger =>
    refine ⟨h, fun _ value mem ↦ ?_⟩
    obtain ⟨rfl, rfl⟩ : _ = trigger ∧ value = form.value := by simpa [perform] using mem
    exact h.value

theorem storable_callAll (kept : KeepsStorable emit) {listeners : List Listener}
    (storable : ∀ listener ∈ listeners, listener.Storable) (h : form.Storable) :
    (callAll emit listeners form).Storable :=
  storable_foldl (fun listener mem _ storableForm ↦
    storable_foldl (fun _ inside _ ↦ storable_perform kept (storable listener mem _ inside))
      storableForm.idle) h.idle

theorem storable_emitWithin (depth : Nat) : KeepsStorable (emitWithin depth) := by
  induction depth with
  | zero => exact fun _ _ h ↦ ⟨h, fun _ _ ↦ nofun⟩
  | succ depth ih =>
    exact fun trigger form h ↦
      storable_callAll ih (fun listener mem ↦ h.listeners listener (List.mem_of_mem_filter mem)) h

theorem storable_emit (h : form.Storable) (trigger : String) : (form.emit trigger).Storable :=
  storable_emitWithin mostNested trigger form h

theorem storable_setValue (h : form.Storable) {value : Json} (storable : value.Storable)
    (trigger : Option String) : (form.setValue value trigger).Storable := by
  cases trigger with
  | none => exact (h.set storable).idle
  | some trigger => exact storable_emit (h.set storable) trigger

end Live

end Form

/-! ### Panels with a form -/

namespace Panel

open Store (Fallible)

variable {store next : Fallible} {panel after : Panel} {value : Json}

theorem still_endLoad (panel : Panel) (error : Remote.RequestError) : Still panel (panel.endLoad error) := by
  cases error with
  | cancelled => exact .refl panel
  | _ => exact still_withdraw (.inr rfl) panel _

theorem Still.hidden (still : Still panel after) (hidden : panel.isRendered = false) :
    after.isRendered = false := by
  rw [← Bool.not_eq_true] at hidden ⊢
  exact hidden ∘ still.isRendered

/-- The panel has a form with values that can be stored, and it knows what the store has for it. -/
structure Knows (store : Fallible) (panel : Panel) : Prop where
  form : ∃ form, panel.form = some form ∧ form.Storable
  state : ∃ state, panel.state = some state ∧ state.data = store.load panel.key

theorem Knows.still (h : Knows store panel) (still : Still panel after)
    (same : next.load panel.key = store.load panel.key) : Knows next after where
  form := by
    rw [still.form]
    exact h.form
  state := by
    rw [still.state, still.key, same]
    exact h.state

/-- **A save keeps panel and store in step**, whether it fails or not. -/
theorem Knows.save (h : Knows store panel) (storable : value.Storable) :
    Knows (panel.save store value).2 (panel.save store value).1 := by
  obtain ⟨state, known, data⟩ := h.state
  rw [Panel.save]
  split
  · exact h
  · split
    · exact h
    · next next saved =>
      have loads := Fallible.load_of_save storable saved
      split
      · next empty =>
        rw [if_pos empty] at loads
        exact ⟨h.form, state, known, data.trans loads.symm⟩
      · next content =>
        rw [if_neg content] at loads
        refine ⟨h.form, { state with data := value }, ?_, loads.symm⟩
        rw [known]
        rfl

theorem Knows.saveForm (h : Knows store panel) :
    Knows (panel.saveForm store).2 (panel.saveForm store).1 := by
  obtain ⟨form, shown, storable⟩ := h.form
  rw [Panel.saveForm, shown]
  exact h.save storable.value

theorem Knows.saveAll (h : Knows store panel) {events : List Form.Event}
    (storable : ∀ trigger value, Form.Event.saveAsked trigger value ∈ events → value.Storable) :
    Knows (panel.saveAll store events).2 (panel.saveAll store events).1 := by
  induction events generalizing panel store with
  | nil => exact h
  | cons event rest ih =>
    have later : ∀ trigger value, Form.Event.saveAsked trigger value ∈ rest → value.Storable :=
      fun trigger value mem ↦ storable trigger value (List.mem_cons_of_mem event mem)
    cases event with
    | saveAsked trigger value => exact ih (h.save (storable trigger value List.mem_cons_self)) later
    | _ => exact ih h later

theorem Knows.afterEmission (h : Knows store panel) {run : Form.Emission} (storable : run.Storable) :
    Knows (panel.afterEmission store run).2 (panel.afterEmission store run).1 := by
  have shown : Knows store { panel with form := some run.form } := ⟨⟨run.form, rfl, storable.form⟩, h.state⟩
  exact shown.saveAll storable.saves

theorem storable_saveListeners : ∀ listener ∈ saveListeners, listener.Storable := by
  intro listener mem
  obtain ⟨trigger, -, rfl⟩ := List.mem_map.mp mem
  exact List.forall_mem_singleton.mpr trivial

/-- A form that is attached with the value from the store. -/
theorem knows_attach (mounted : panel.phase ≠ .unmounted) (schema : Json) (metadata : Form.Metadata) :
    Knows store (panel.attach schema metadata (store.load panel.key)) := by
  rw [attach, if_neg mounted]
  exact ⟨⟨_, rfl, store.store.storable_load panel.key, storable_saveListeners⟩, _, rfl, rfl⟩

/-! ### Runs -/

/-- The values that come with the event can be stored. -/
def Event.Storable : Event Fallible → Prop
  | .setValue value _ => value.Storable
  | .listen listener => listener.Storable
  | _ => True

/-- Others do not write the entry under a key; they may well decide which saves fail from now on. -/
def Event.SparesEntry (key : String) : Event Fallible → Prop
  | .elsewhere change _ => ∀ store, (change store).load key = store.load key
  | _ => True

namespace Activity

variable {key : String} {later count : Nat} {a b : Activity Fallible} {event : Event Fallible}

/-- The panel has no form yet: it may still be loaded, once in all, and a load under way holds the value of
its entry. -/
structure Awaits (key : String) (later : Nat) (a : Activity Fallible) : Prop where
  entry : a.panel.key = key
  form : a.panel.form = none
  hidden : a.panel.isRendered = false
  held : ∀ schema metadata data, .holding schema metadata data ∈ a.loads → data = a.store.load key
  once : a.loads.length + later ≤ 1

/-- The panel has its form, and no load is under way. -/
structure InStep (key : String) (a : Activity Fallible) : Prop where
  entry : a.panel.key = key
  loads : a.loads = []
  knows : Knows a.store a.panel

theorem Awaits.still (h : Awaits key count a) (still : Still a.panel b.panel)
    (same : b.store.load key = a.store.load key) (loads : b.loads.Sublist a.loads) (fewer : later ≤ count) :
    Awaits key later b where
  entry := still.key.trans h.entry
  form := still.form.trans h.form
  hidden := still.hidden h.hidden
  held schema metadata data mem := (h.held schema metadata data (loads.subset mem)).trans same.symm
  once := by
    have length := loads.length_le
    have once := h.once
    omega

theorem InStep.still (h : InStep key a) (still : Still a.panel b.panel)
    (same : b.store.load key = a.store.load key) (loads : b.loads = a.loads) : InStep key b where
  entry := still.key.trans h.entry
  loads := loads.trans h.loads
  knows := h.knows.still still (h.entry ▸ same)

/-! #### Before the form -/

/-- The only load under way goes on to another stage. -/
theorem Awaits.goOn {stage stage' : LoadStage} {after : Panel} (h : Awaits key later a) (only : a.loads = [stage])
    (still : Still a.panel after)
    (held : ∀ schema metadata data, stage' = .holding schema metadata data → data = a.store.load key) :
    Awaits key later (a.setLoad 0 after (some stage')) where
  entry := still.key.trans h.entry
  form := still.form.trans h.form
  hidden := still.hidden h.hidden
  held schema metadata data mem := by
    rw [setLoad, only] at mem
    exact held schema metadata data (List.mem_singleton.mp mem).symm
  once := by
    have once := h.once
    rw [setLoad, only]
    rw [only] at once
    exact once

/-- A load that is at some place is the only one, and no other one is to come. -/
theorem Awaits.only {load : Nat} {stage : LoadStage} (h : Awaits key later a)
    (found : a.loads[load]? = some stage) : load = 0 ∧ a.loads = [stage] ∧ later = 0 := by
  have once := h.once
  cases loads : a.loads with
  | nil =>
    rw [loads] at found
    cases found
  | cons first rest =>
    rw [loads, List.length_cons] at once
    obtain rfl : rest = [] := List.eq_nil_of_length_eq_zero (by omega)
    cases load with
    | zero =>
      rw [loads] at found
      cases found
      exact ⟨rfl, rfl, by omega⟩
    | succ load =>
      rw [loads] at found
      cases found

/-- A load goes on: it waits, or it ends without a form, or it brings the form with the value of the entry. -/
theorem Awaits.proceed {load : Nat} {stage : LoadStage} (h : Awaits key later a)
    (found : a.loads[load]? = some stage) (answer : Except Remote.RequestError Json) :
    let b := a.setLoad load (stage.next a.store answer a.panel).1 (stage.next a.store answer a.panel).2
    Awaits key later b ∨ InStep key b ∧ later = 0 := by
  dsimp only
  obtain ⟨rfl, only, last⟩ := h.only found
  cases stage with
  | asking =>
    have still := a.panel.still_receive answer
    rw [LoadStage.next]
    cases received : a.panel.receive answer with
    | mk after receipt =>
      rw [received] at still
      cases receipt with
      | settled => exact .inl (h.still still rfl (List.eraseIdx_sublist _ _) le_rfl)
      | crashed error =>
        exact .inl (h.still (still.trans (after.still_endLoad error)) rfl (List.eraseIdx_sublist _ _) le_rfl)
      | prepared schema metadata => exact .inl (h.goOn only still fun _ _ _ same ↦ by cases same)
  | reading schema metadata =>
    refine .inl (h.goOn only (.refl a.panel) fun _ _ data same ↦ ?_)
    cases same
    exact congrArg a.store.load h.entry
  | holding schema metadata data =>
    have held : data = a.store.load a.panel.key := by
      rw [h.entry]
      exact h.held schema metadata data (only ▸ List.mem_singleton.mpr rfl)
    by_cases unmounted : a.panel.phase = .unmounted
    · have same : a.panel.attach schema metadata data = a.panel := if_pos unmounted
      rw [LoadStage.next, same]
      exact .inl (h.still (.refl a.panel) rfl (List.eraseIdx_sublist _ _) le_rfl)
    · refine .inr ⟨⟨?_, ?_, ?_⟩, last⟩
      · exact ((a.panel.remains_attach schema metadata data).key).trans h.entry
      · show a.loads.eraseIdx 0 = []
        rw [only]
        rfl
      · rw [LoadStage.next, held]
        exact knows_attach unmounted schema metadata

/-- **Before the form** is there, nothing is saved; a load that ends brings it with the value of the entry. -/
theorem Awaits.step (h : Awaits key (event.isLoad.toNat + later) a) (step : Step a event b)
    (spared : event.SparesEntry key) : Awaits key later b ∨ InStep key b ∧ later = 0 := by
  have fewer : later ≤ event.isLoad.toNat + later := Nat.le_add_left _ _
  have waits : Awaits key later a := h.still (.refl a.panel) rfl (.refl _) fewer
  have without {emission : Form.Live → Form.Emission} :
      a.keep (a.panel.form.map fun form ↦ a.panel.afterEmission a.store (emission form)) = a := by
    rw [h.form]
    rfl
  cases step with
  | idle => exact .inl waits
  | load fresh =>
    refine .inl ⟨h.entry, h.form, h.hidden, fun schema metadata data mem ↦ ?_, ?_⟩
    · rcases List.mem_append.mp mem with old | new
      · exact h.held schema metadata data old
      · cases List.mem_singleton.mp new
    · have once := h.once
      rw [List.length_append, List.length_singleton]
      rw [Event.isLoad, Bool.toNat_true] at once
      omega
  | proceed found answer => exact waits.proceed found answer
  | crash there error =>
    exact .inl (waits.still (a.panel.still_endLoad error) rfl (List.eraseIdx_sublist _ _) le_rfl)
  | abandon load => exact .inl (waits.still (.refl a.panel) rfl (List.eraseIdx_sublist _ _) le_rfl)
  | submit rendered shown => cases h.form.symm.trans shown
  | answer underWay answer => exact .inl (waits.still (a.panel.still_endSubmit answer) rfl (.refl _) le_rfl)
  | setValue value trigger =>
    rw [without]
    exact .inl waits
  | emit trigger =>
    rw [without]
    exact .inl waits
  | listen listener =>
    refine .inl (waits.still ⟨⟨⟨rfl, rfl, rfl⟩, id⟩, ?_, rfl⟩ rfl (.refl _) le_rfl)
    rw [h.form]
    rfl
  | notify saves =>
    rw [Panel.saveForm, h.form]
    exact .inl waits
  | select displayed => cases h.hidden.symm.trans displayed
  | deselect => exact .inl (waits.still ⟨⟨⟨rfl, rfl, rfl⟩, id⟩, rfl, rfl⟩ rfl (.refl _) le_rfl)
  | report message => exact .inl (waits.still (still_withdraw (.inr rfl) a.panel _) rfl (.refl _) le_rfl)
  | unmount => exact .inl (waits.still a.panel.still_unmount rfl (.refl _) le_rfl)
  | elsewhere change messages => exact .inl (waits.still (.refl a.panel) (spared a.store) (.refl _) le_rfl)

/-! #### With the form -/

/-- A change of the form, with the saves that its listeners ask for. -/
theorem InStep.keep (h : InStep key a) {emission : Form.Live → Form.Emission}
    (storable : ∀ form : Form.Live, form.Storable → (emission form).Storable) :
    InStep key (a.keep (a.panel.form.map fun form ↦ a.panel.afterEmission a.store (emission form))) := by
  obtain ⟨form, shown, proper⟩ := h.knows.form
  obtain ⟨state, same⟩ := a.panel.afterEmission_eq a.store (emission form)
  rw [shown]
  exact ⟨(congrArg Panel.key same :).trans h.entry, h.loads, h.knows.afterEmission (storable form proper)⟩

/-- **With the form**, each event that is no load keeps panel and store in step. -/
theorem InStep.step (h : InStep key a) (step : Step a event b) (later : event.isLoad = false)
    (storable : event.Storable) (spared : event.SparesEntry key) : InStep key b := by
  cases step with
  | idle => exact h
  | load => cases later
  | proceed found => simp [h.loads] at found
  | crash there => simp [h.loads] at there
  | abandon load => exact h.still (.refl a.panel) rfl (by simp [setLoad, h.loads])
  | submit rendered =>
    exact h.still ⟨⟨⟨rfl, rfl, rfl⟩, fun _ ↦ by rw [isRendered, rendered]; rfl⟩, rfl, rfl⟩ rfl rfl
  | answer underWay answer => exact h.still (a.panel.still_endSubmit answer) rfl rfl
  | setValue value trigger => exact h.keep fun form proper ↦ Form.Live.storable_setValue proper storable trigger
  | emit trigger => exact h.keep fun form proper ↦ Form.Live.storable_emit proper trigger
  | listen listener =>
    obtain ⟨form, shown, proper⟩ := h.knows.form
    refine ⟨h.entry, h.loads, ⟨form.listen listener, ?_, proper.listen storable⟩, h.knows.state⟩
    rw [shown]
    rfl
  | notify saves =>
    obtain ⟨state, same⟩ := a.panel.saveForm_eq a.store
    exact ⟨(congrArg Panel.key same :).trans h.entry, h.loads, h.knows.saveForm⟩
  | select displayed => exact h.still ⟨⟨⟨rfl, rfl, rfl⟩, id⟩, rfl, rfl⟩ rfl rfl
  | deselect => exact h.still ⟨⟨⟨rfl, rfl, rfl⟩, id⟩, rfl, rfl⟩ rfl rfl
  | report message => exact h.still (still_withdraw (.inr rfl) a.panel _) rfl rfl
  | unmount => exact h.still a.panel.still_unmount rfl rfl
  | elsewhere change messages => exact h.still (.refl a.panel) (spared a.store) rfl

/-! #### Runs -/

theorem InStep.run (h : InStep key a) {events : List (Event Fallible)} (none : events.countP Event.isLoad = 0)
    (storable : ∀ event ∈ events, event.Storable) (spared : ∀ event ∈ events, event.SparesEntry key) :
    InStep key (a.run events) := by
  induction events generalizing a with
  | nil => exact h
  | cons event rest ih =>
    rw [List.forall_mem_cons] at storable spared
    obtain ⟨first, none⟩ : event.isLoad = false ∧ rest.countP Event.isLoad = 0 := by
      rw [List.countP_eq_zero, List.forall_mem_cons] at none
      exact ⟨Bool.eq_false_iff.mpr none.1, List.countP_eq_zero.mpr none.2⟩
    exact ih (h.step (a.step event) first storable.1 spared.1) none storable.2 spared.2

theorem Awaits.run {events : List (Event Fallible)} (h : Awaits key (events.countP Event.isLoad + later) a)
    (storable : ∀ event ∈ events, event.Storable) (spared : ∀ event ∈ events, event.SparesEntry key) :
    Awaits key later (a.run events) ∨ InStep key (a.run events) ∧ later = 0 := by
  induction events generalizing a with
  | nil => exact .inl (Nat.zero_add later ▸ h)
  | cons event rest ih =>
    rw [List.forall_mem_cons] at storable spared
    have split : (event :: rest).countP Event.isLoad + later =
        event.isLoad.toNat + (rest.countP Event.isLoad + later) := by
      rw [List.countP_cons]
      cases event.isLoad
      · exact (Nat.zero_add _).symm
      · exact Nat.add_right_comm _ 1 later |>.trans (Nat.add_comm _ 1)
    rw [split] at h
    obtain awaits | ⟨inStep, last⟩ := h.step (a.step event) spared.1
    · exact ih awaits storable.2 spared.2
    · refine .inr ⟨inStep.run (by omega) storable.2 spared.2, by omega⟩

/-- **What a panel knows to be stored is stored.** In every run with one load in which nobody else writes
the panel's entry, and in which any save may fail, the data of the panel is exactly the value of its entry
in each state from the end of a successful load on. -/
theorem data_is_stored (verb path : String) (single : Bool) (store : Fallible) (alerts : List String)
    {events more : List (Event Fallible)} (once : (events ++ more).countP Event.isLoad ≤ 1)
    (storable : ∀ event ∈ events ++ more, event.Storable)
    (spared : ∀ event ∈ events ++ more, event.SparesEntry (Panel.make verb path single).key) :
    let loaded := (start (Panel.make verb path single) store alerts).run events
    let after := loaded.run more
    loaded.panel.phase = .rendered →
      ∃ state, after.panel.state = some state ∧
        state.data = EntryStore.load after.store (Panel.make verb path single).key := by
  intro loaded after rendered
  rw [List.countP_append] at once
  rw [List.forall_mem_append] at storable spared
  have fresh : Awaits (Panel.make verb path single).key
      (events.countP Event.isLoad + more.countP Event.isLoad)
      (start (Panel.make verb path single) store alerts) :=
    ⟨rfl, rfl, rfl, fun _ _ _ ↦ nofun, by simpa [start] using once⟩
  obtain awaits | ⟨inStep, last⟩ := fresh.run storable.1 spared.1
  · have hidden := awaits.hidden
    rw [isRendered, show _ = Phase.rendered from rendered] at hidden
    cases hidden
  · have kept := inStep.run last storable.2 spared.2
    obtain ⟨state, known, data⟩ := kept.knows.state
    exact ⟨state, known, data.trans (congrArg after.store.load kept.entry)⟩

/-- A store that saves only what has a member `a`. -/
def choosy : Fallible := ⟨.memory [], fun _ _ value ↦ (value.member? "a").isNone⟩

/-- One load that renders a panel. -/
def loadOnce : List (Event Fallible) :=
  [.load, .proceed 0 (.ok (.object [("type", .text "object")])), .proceed 0 (.error .closed),
    .proceed 0 (.error .closed)]

/-- A value is saved, the save of another one fails, and the panel is unmounted while a submission of the
other one is under way. -/
def secondSaveFails : List (Event Fallible) :=
  [.setValue (.object [("a", .int 1)]) (some "blur"), .setValue (.object [("b", .int 2)]) (some "blur"),
    .submit, .unmount, .answer (.ok .null)]

/-- What is known to be stored outlasts a failed save and the end of the panel. -/
theorem known_outlasts_failed_save :
    let loaded := (start (Panel.make "post" "/a" false) choosy []).run loadOnce
    let after := loaded.run secondSaveFails
    loaded.panel.phase = .rendered ∧
      ∃ state, after.panel.state = some state ∧
        state.data = EntryStore.load after.store (Panel.make "post" "/a" false).key := by
  intro loaded after
  have plain : Schema.resolve (.object [("type", .text "object")]) =
      .ok (.object [("type", .text "object")]) :=
    Schema.resolve_single (by decide) (by simp) (by simp)
  have rendered : loaded.panel.phase = .rendered := by
    simp [loaded, start, run, loadOnce, Activity.perform, setLoad, LoadStage.next, receive, isDocument,
      receiveSchema, plain, attach, Panel.make]
  have storable : ∀ event ∈ loadOnce ++ secondSaveFails, event.Storable := by
    simp [loadOnce, secondSaveFails, Event.Storable, Json.Storable, Json.StorableMembers, Assoc.keys]
    decide
  exact ⟨rendered, data_is_stored "post" "/a" false choosy [] (by decide) storable
    (by simp [loadOnce, secondSaveFails, Event.SparesEntry]) rendered⟩

end Activity

end Panel

end VerbForms
