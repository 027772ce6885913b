import VerbForms.Proofs.Panel.AtRest

/-!
# Overlapping loads

A load is turned away unless the panel is uninitialized, but the panel stays so while the first load
waits for its schema: several loads can be under way at once. Where none is left when the panel gets
rendered, its form lasts (`Lasts`), whatever is asked for later. Where one is left, it may hide the
panel, or it renders it again and what was entered is lost.
-/

namespace VerbForms

namespace Panel

variable {σ : Type} {panel : Panel}

/-- What belongs to a load. -/
def Event.isLoading : Event σ → Bool
  | .load | .proceed _ _ | .crash _ _ | .abandon _ => true
  | _ => false

/-- Whether the panel is unmounted. -/
def Event.isUnmount : Event σ → Bool
  | .unmount => true
  | _ => false

/-- What the form of the panel was made of. -/
def basis (panel : Panel) : Option (Json × Form.Metadata) :=
  panel.state.map fun state ↦ (state.schema, state.metadata)

/-! ### What operations leave alone -/

section Operations

variable [EntryStore σ]

theorem basis_save (panel : Panel) (store : σ) (value : Json) :
    (panel.save store value).1.basis = panel.basis := by
  rw [save]
  split
  · rfl
  · split
    · rfl
    · split
      · rfl
      · simp [basis, Function.comp_def]

theorem basis_saveForm (panel : Panel) (store : σ) :
    (panel.saveForm store).1.basis = panel.basis := by
  rw [saveForm]
  split
  · exact panel.basis_save store _
  · rfl

theorem basis_saveAll (panel : Panel) (store : σ) (events : List Form.Event) :
    (panel.saveAll store events).1.basis = panel.basis := by
  induction events generalizing panel store with
  | nil => rfl
  | cons event events ih =>
    cases event with
    | saveAsked trigger value =>
      rw [saveAll_cons_saveAsked, ih]
      exact panel.basis_save store value
    | _ => exact ih panel store

end Operations

theorem LedOn.begun {after : Panel} (h : LedOn panel after) (begun : panel.phase ≠ .uninitialized) :
    after.phase ≠ .uninitialized := by
  rcases h.phase with same | loaded
  · rw [same]
    exact begun
  · exact fun fresh ↦ absurd (fresh ▸ loaded) (by decide)

theorem begun_of_isRendered (displayed : panel.isRendered = true) :
    panel.phase ≠ .uninitialized := by
  intro fresh
  simp [isRendered, fresh] at displayed

/-- The end of a submission leads a panel from submitting to rendered, and leaves others in their
phases. -/
theorem phase_endSubmit (panel : Panel) (answer : Except Remote.RequestError Json) :
    (panel.endSubmit answer).panel.phase = panel.freed.phase := by
  cases answer with
  | error error => cases error <;> rfl
  | ok response =>
    by_cases gone : panel.phase = .unmounted
    · simp [endSubmit, freed, gone]
    · simp [endSubmit, gone]

/-- What others do to the form depends on the form alone. -/
theorem Event.form_outside {around other : Surroundings σ} (same : around.form = other.form)
    (event : Event σ) : (event.outside around).form = (event.outside other).form := by
  cases event <;> simp [Event.outside, same]

theorem Event.form_foldl_outside {around other : Surroundings σ} (same : around.form = other.form)
    (events : List (Event σ)) :
    (events.foldl Event.outside around).form = (events.foldl Event.outside other).form := by
  induction events generalizing around other with
  | nil => exact same
  | cons event events ih => exact ih (event.form_outside same)

theorem Event.eq_unmount {event : Event σ} (unmounts : event.isUnmount = true) :
    event = .unmount := by
  cases event with
  | unmount => rfl
  | _ => cases unmounts

namespace Activity

variable [EntryStore σ] {a b : Activity σ} {event : Event σ}

/-- Once a load has begun, it stays so. -/
theorem Step.begun (step : Step a event b) (begun : a.panel.phase ≠ .uninitialized) :
    b.panel.phase ≠ .uninitialized := by
  cases step with
  | @proceed load stage found answer =>
    rw [panel_setLoad]
    exact (ledOn_next stage a.store answer a.panel).begun begun
  | crash there error => exact (a.panel.ledOn_endLoad error).begun begun
  | submit rendered => simp
  | answer underWay answer =>
    rw [phase_endSubmit, freed]
    split
    · simp
    · exact begun
  | setValue value trigger =>
    obtain ⟨state, same⟩ := a.panel_keep (·.setValue value trigger)
    exact (congrArg Panel.phase same :).trans_ne begun
  | emit trigger =>
    obtain ⟨state, same⟩ := a.panel_keep (·.emit trigger)
    exact (congrArg Panel.phase same :).trans_ne begun
  | notify saves =>
    obtain ⟨state, same⟩ := a.panel.saveForm_eq a.store
    exact (congrArg Panel.phase same :).trans_ne begun
  | report message => exact (a.panel.ledOn_withdraw (by decide) _).begun begun
  | unmount => simp [Panel.unmount]
  | _ => exact begun

theorem begun_run (begun : a.panel.phase ≠ .uninitialized) (events : List (Event σ)) :
    (a.run events).panel.phase ≠ .uninitialized := by
  induction events generalizing a with
  | nil => exact begun
  | cons event events ih => exact ih ((a.step event).begun begun)

/-! ### Panels without loads under way -/

/-- Where no load is under way and none can begin, nothing belongs to a load. -/
theorem Step.eq_of_unloaded (step : Step a event b) (unloaded : a.loads = [])
    (begun : a.panel.phase ≠ .uninitialized) (loading : event.isLoading = true) : b = a := by
  cases step with
  | idle => rfl
  | load fresh => exact absurd fresh begun
  | proceed found => simp [unloaded] at found
  | crash there => simp [unloaded] at there
  | abandon load => rw [setLoad, unloaded, List.eraseIdx_nil, ← unloaded]
  | _ => cases loading

theorem Step.loads_eq (step : Step a event b) (other : event.isLoading = false) : b.loads = a.loads := by
  cases step with
  | load | proceed | crash | abandon => cases other
  | setValue value trigger => exact a.loads_keep _
  | emit trigger => exact a.loads_keep _
  | _ => rfl

theorem Step.unloaded (step : Step a event b) (unloaded : a.loads = [])
    (begun : a.panel.phase ≠ .uninitialized) : b.loads = [] := by
  cases loading : event.isLoading with
  | true =>
    rw [step.eq_of_unloaded unloaded begun loading]
    exact unloaded
  | false =>
    rw [step.loads_eq loading]
    exact unloaded

/-- Without loads under way, a run is the run without loads. -/
theorem run_of_unloaded (unloaded : a.loads = []) (begun : a.panel.phase ≠ .uninitialized)
    (events : List (Event σ)) : a.run events = a.run (events.filter (!·.isLoading)) := by
  induction events generalizing a with
  | nil => rfl
  | cons event events ih =>
    cases loading : event.isLoading with
    | true =>
      rw [List.filter_cons_of_neg (by simp [loading])]
      show (a.perform event).run events = _
      rw [(a.step event).eq_of_unloaded unloaded begun loading]
      exact ih unloaded begun
    | false =>
      rw [List.filter_cons_of_pos (by simp [loading])]
      exact ih ((a.step event).unloaded unloaded begun) ((a.step event).begun begun)

/-! ### Forms that last -/

/-- The form is still the one at the beginning, as the user has changed it; its schema is the same, and
the panel is displayed until it is unmounted. -/
structure Lasts (a : Activity σ) (more : List (Event σ)) : Prop where
  form : (a.run more).panel.form = (more.foldl Event.outside a.surroundings).form
  basis : (a.run more).panel.basis = a.panel.basis
  phase : if more.any Event.isUnmount then (a.run more).panel.phase = .unmounted
    else (a.run more).panel.isRendered = true

theorem basis_keep (a : Activity σ) (emission : Form.Live → Form.Emission) :
    (a.keep (a.panel.form.map fun form ↦
      a.panel.afterEmission a.store (emission form))).panel.basis = a.panel.basis := by
  cases a.panel.form with
  | none => rfl
  | some form =>
    exact basis_saveAll { a.panel with form := some (emission form).form } a.store
      (emission form).events

/-- A displayed panel for which no load is under way keeps its form in every event but a report and
the unmounting. -/
theorem Step.displayed (step : Step a event b) (unloaded : a.loads = [])
    (displayed : a.panel.isRendered = true) (own : event.isReport = false)
    (mounted : event.isUnmount = false) :
    b.panel.form = (event.outside a.surroundings).form ∧ b.panel.basis = a.panel.basis ∧
      b.panel.isRendered = true := by
  cases step with
  | idle disabled =>
    rw [outside_of_disabled disabled]
    exact ⟨rfl, rfl, displayed⟩
  | load fresh => exact absurd fresh (begun_of_isRendered displayed)
  | proceed found => simp [unloaded] at found
  | crash there => simp [unloaded] at there
  | submit => exact ⟨rfl, rfl, rfl⟩
  | answer underWay answer =>
    have same := a.panel.atRest_endSubmit answer
    refine ⟨(congrArg Panel.form same :), (congrArg Panel.basis same :), ?_⟩
    rw [← atRest_isRendered, same, atRest_isRendered]
    exact displayed
  | setValue value trigger =>
    obtain ⟨state, same⟩ := a.panel_keep (·.setValue value trigger)
    exact ⟨(congrArg Panel.form same :), a.basis_keep _,
      (congrArg Panel.isRendered same :).trans displayed⟩
  | emit trigger =>
    obtain ⟨state, same⟩ := a.panel_keep (·.emit trigger)
    exact ⟨(congrArg Panel.form same :), a.basis_keep _,
      (congrArg Panel.isRendered same :).trans displayed⟩
  | notify saves =>
    obtain ⟨state, same⟩ := a.panel.saveForm_eq a.store
    exact ⟨(congrArg Panel.form same :), a.panel.basis_saveForm a.store,
      (congrArg Panel.isRendered same :).trans displayed⟩
  | report => cases own
  | unmount => cases mounted
  | abandon | listen | select | deselect | elsewhere => exact ⟨rfl, rfl, displayed⟩

/-- Where no load is left, the form of a displayed panel lasts. -/
theorem lasts_of_unloaded (unloaded : a.loads = []) (displayed : a.panel.isRendered = true)
    {more : List (Event σ)} (own : ∀ event ∈ more, event.isReport = false) : Lasts a more := by
  induction more generalizing a with
  | nil => exact ⟨rfl, rfl, displayed⟩
  | cons event more ih =>
    obtain ⟨here, later⟩ := List.forall_mem_cons.mp own
    cases unmounts : event.isUnmount with
    | true =>
      obtain rfl := Event.eq_unmount unmounts
      obtain ⟨retired, around⟩ := a.retired_unmount.run more
      constructor
      · exact congrArg Surroundings.form around
      · show Option.map _ ((a.perform .unmount).run more).panel.state = _
        rw [retired.state]
        rfl
      · rw [List.any_cons, unmounts, Bool.true_or, if_pos rfl]
        exact retired.phase
    | false =>
      obtain ⟨form, basis, still⟩ := (a.step event).displayed unloaded displayed here unmounts
      have left := (a.step event).unloaded unloaded (begun_of_isRendered displayed)
      have rest : Lasts (a.perform event) more := ih left still later
      constructor
      · exact rest.form.trans (Event.form_foldl_outside form more)
      · exact rest.basis.trans basis
      · rw [List.any_cons, unmounts, Bool.false_or]
        exact rest.phase

/-! ### Loads that are left -/

theorem array_ne_self (value : Json) : Json.array [value] ≠ value := by
  intro same
  have size := congrArg sizeOf same
  simp only [Json.array.sizeOf_spec, List.cons.sizeOf_spec, List.nil.sizeOf_spec] at size
  omega

section Left

variable {schema data : Json} {metadata : Form.Metadata} {rest : List LoadStage}

/-- A load that has read the stored value renders the panel again. -/
theorem form_proceed_holding (mounted : a.panel.phase ≠ .unmounted)
    (first : a.loads = .holding schema metadata data :: rest)
    (answer : Except Remote.RequestError Json) :
    (a.perform (.proceed 0 answer)).panel.form = some (formOf schema metadata data) := by
  rw [Activity.perform, first]
  show (a.panel.attach schema metadata data).form = _
  rw [attach, if_neg mounted]

/-- A load reads what the store has then. -/
theorem perform_proceed_reading (first : a.loads = .reading schema metadata :: rest)
    (answer : Except Remote.RequestError Json) :
    (a.perform (.proceed 0 answer)).panel = a.panel ∧
      (a.perform (.proceed 0 answer)).loads =
        .holding schema metadata (EntryStore.load a.store a.panel.key) :: rest := by
  rw [Activity.perform, first]
  refine ⟨rfl, ?_⟩
  show a.loads.set 0 _ = _
  rw [first]
  rfl

/-- A value that is entered and not saved changes the form only. -/
theorem perform_entered (a : Activity σ) (value : Json) :
    (a.perform (.setValue value none)).panel.phase = a.panel.phase ∧
      (a.perform (.setValue value none)).panel.key = a.panel.key ∧
      (a.perform (.setValue value none)).store = a.store ∧
      (a.perform (.setValue value none)).loads = a.loads := by
  rw [Activity.perform, Panel.setValue]
  cases a.panel.form with
  | none => exact ⟨rfl, rfl, rfl, rfl⟩
  | some form => exact ⟨rfl, rfl, rfl, rfl⟩

/-- What has been entered is lost if the form has the stored value. -/
theorem not_lasts_entered {more : List (Event σ)}
    (attached : ((a.perform (.setValue (.array [data]) none)).run more).panel.form =
      some (formOf schema metadata data))
    (untouched : ∀ around : Surroundings σ, (more.foldl Event.outside around).form = around.form) :
    ¬ Lasts a (.setValue (.array [data]) none :: more) := by
  intro lasts
  have form := attached.symm.trans lasts.form
  rw [List.foldl_cons, untouched] at form
  cases here : a.panel.form with
  | none => simp [Event.outside, surroundings, here] at form
  | some first =>
    simp only [Event.outside, surroundings, here, Option.map_some, Option.some.injEq] at form
    exact array_ne_self data (congrArg Form.Live.value form).symm

/-- A load that is left can take the form away, or give it the stored value again. -/
theorem exists_not_lasts (rendered : a.panel.phase = .rendered) (left : a.loads ≠ []) :
    ∃ more, (∀ event ∈ more, event.isReport = false) ∧ ¬ Lasts a more := by
  have mounted : a.panel.phase ≠ .unmounted := by simp [rendered]
  obtain ⟨stage, rest, first⟩ := List.exists_cons_of_ne_nil left
  cases stage with
  | asking =>
    refine ⟨[.proceed 0 (.error (.exchange (.network "" "" "")))], by simp [Event.isReport], ?_⟩
    intro lasts
    have displayed := lasts.phase
    rw [if_neg (by simp [Event.isUnmount])] at displayed
    simp [run, Activity.perform, first, LoadStage.next, receive, withdraw, mounted, setLoad,
      isRendered] at displayed
  | reading schema metadata =>
    obtain ⟨phase, key, store, loads⟩ :=
      a.perform_entered (.array [EntryStore.load a.store a.panel.key])
    obtain ⟨panel, held⟩ := perform_proceed_reading (loads.trans first) (.error .closed)
    rw [key, store] at held
    refine ⟨_ :: [.proceed 0 (.error .closed), .proceed 0 (.error .closed)], ?_,
      not_lasts_entered (form_proceed_holding ?_ held (.error .closed)) fun _ ↦ rfl⟩
    · simp [Event.isReport]
    · rw [panel, phase]
      exact mounted
  | holding schema metadata data =>
    obtain ⟨phase, -, -, loads⟩ := a.perform_entered (.array [data])
    refine ⟨_ :: [.proceed 0 (.error .closed)], ?_,
      not_lasts_entered (form_proceed_holding ?_ (loads.trans first) (.error .closed)) fun _ ↦ rfl⟩
    · simp [Event.isReport]
    · rw [phase]
      exact mounted

end Left

/-- **A rendered form lasts exactly if no load is left.** Later loads are turned away in any case. If no
load is under way when a panel is rendered, whatever belongs to loads changes nothing, and the form is
never replaced, hidden or reset. If one is, some events lead to that. -/
theorem rendered_lasts_iff_unloaded (rendered : a.panel.phase = .rendered) :
    (∀ more, (a.run more).perform .load = a.run more) ∧
      (a.loads = [] → ∀ more, a.run more = a.run (more.filter (!·.isLoading))) ∧
      (a.loads = [] ↔ ∀ more, (∀ event ∈ more, event.isReport = false) → Lasts a more) := by
  have displayed : a.panel.isRendered = true := by simp [isRendered, rendered]
  have begun := begun_of_isRendered displayed
  refine ⟨fun more ↦ if_neg (begun_run begun more), fun unloaded ↦ run_of_unloaded unloaded begun, ?_⟩
  constructor
  · intro unloaded more own
    exact lasts_of_unloaded unloaded displayed own
  · intro lasts
    by_contra left
    obtain ⟨more, own, lost⟩ := exists_not_lasts rendered left
    exact lost (lasts more own)

/-- One load that renders a panel. -/
def singleLoad : List (Event Store) :=
  [.load, .proceed 0 (.ok (.object [("type", .text "object")])), .proceed 0 (.error .closed),
    .proceed 0 (.error .closed)]

/-- A value is entered, and a load comes too late. -/
def lateLoad : List (Event Store) :=
  [.setValue (.object [("a", .int 1)]) none, .load,
    .proceed 0 (.ok (.object [("type", .text "object")])), .proceed 0 (.error .closed),
    .proceed 0 (.error .closed)]

/-- A load after the only one is turned away, and what was entered lasts. -/
theorem single_load_lasts :
    let a := (start (Panel.make "post" "/a" false) (Store.memory []) []).run singleLoad
    a.panel.phase = .rendered ∧ a.loads = [] ∧ Lasts a lateLoad := by
  intro a
  have plain : Schema.resolve (.object [("type", .text "object")]) =
      .ok (.object [("type", .text "object")]) :=
    Schema.resolve_single (by decide) (by simp) (by simp)
  have rendered : a.panel.phase = .rendered := by
    simp [a, start, run, singleLoad, Activity.perform, setLoad, LoadStage.next, receive, isDocument,
      receiveSchema, plain, attach, Panel.make]
  have unloaded : a.loads = [] := by
    simp [a, start, run, singleLoad, Activity.perform, setLoad, LoadStage.next, receive, isDocument,
      receiveSchema, plain, attach, Panel.make]
  have own : ∀ event ∈ lateLoad, event.isReport = false := by simp [lateLoad, Event.isReport]
  exact ⟨rendered, unloaded, (rendered_lasts_iff_unloaded rendered).2.2.mp unloaded lateLoad own⟩

/-- Two loads begin before one of them renders the panel. -/
def overlappingLoads : List (Event Store) := .load :: singleLoad

/-- The other of two overlapping loads renders the panel again, and the value that was entered
between is lost. -/
theorem exists_second_rendering :
    ¬ ∀ events more : List (Event Store),
      (∀ event ∈ events ++ more, event.isReport = false) →
        let a := (start (Panel.make "post" "/a" false) (Store.memory []) []).run events
        a.panel.phase = .rendered → Lasts a more := by
  intro always
  have plain : Schema.resolve (.object [("type", .text "object")]) =
      .ok (.object [("type", .text "object")]) :=
    Schema.resolve_single (by decide) (by simp) (by simp)
  have lasts := always overlappingLoads lateLoad
    (by simp [overlappingLoads, singleLoad, lateLoad, Event.isReport])
    (by simp [start, run, overlappingLoads, singleLoad, Activity.perform, setLoad, LoadStage.next,
      receive, isDocument, receiveSchema, plain, attach, Panel.make])
  have stored (key : String) : EntryStore.load (Store.memory []) key = Json.object [] := rfl
  have value := congrArg (Option.map Form.Live.value) lasts.form
  simp [start, run, overlappingLoads, singleLoad, lateLoad, Activity.perform, setLoad,
    LoadStage.next, receive, isDocument, receiveSchema, plain, attach, Panel.make, Panel.setValue,
    afterEmission, saveAll, keep, Form.Live.setValue, Form.Emission.idle, formOf, Event.outside,
    surroundings, stored] at value

end Activity

end Panel

end VerbForms
