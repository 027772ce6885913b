import VerbForms.Proofs.Panel.Unmounted
import VerbForms.Proofs.Schema.Document

/-!
# One submission at a time

The phase of a mounted panel tells whether a submission is under way (`Linked`). A load keeps the panel
in phases in which nothing can be submitted, and once it has ended only submissions and the unmounting
change the phase; so a panel that is loaded once stays `Orderly`, whatever happens in which order.
-/

namespace VerbForms

/-- What a submission that sends nothing gives at once. -/
def SubmitStart.unsent? : SubmitStart → Option (Except NotReady SubmitResult)
  | .busy => some (.ok Panel.ignored)
  | .refused reason => some (.error reason)
  | .sending _ _ => none

namespace Panel

/-- A panel that is mounted is submitting if one submission is under way and not if there is none. -/
def Linked (phase : Phase) (sending : Nat) : Prop :=
  sending ≤ 1 ∧ (phase ≠ .unmounted → (phase = .submitting ↔ sending = 1))

/-- The phases in which a load can be at a stage. -/
def LoadStage.Fits (phase : Phase) : LoadStage → Prop
  | .asking => phase = .uninitialized ∨ phase = .unmounted
  | .reading _ _ | .holding _ _ _ => phase = .schemaLoaded ∨ phase = .unmounted

variable {σ : Type} {before after panel : Panel} {stage : LoadStage}

/-! ### Loads -/

/-- What a load may do to a panel without a form: it leaves an unmounted one in its phase, and a panel
that gets rendered gets a form. -/
structure Advances (before after : Panel) : Prop where
  still : before.phase = .unmounted → after.phase = .unmounted
  free : after.phase ≠ .submitting
  form : after.isRendered = true → after.form.isSome = true

/-- A panel that is not rendered afterwards. -/
theorem Advances.of_hidden (still : before.phase = .unmounted → after.phase = .unmounted)
    (hidden : after.isRendered = false) : Advances before after where
  still := still
  free submitting := by simp [isRendered, submitting] at hidden
  form rendered := by simp [hidden] at rendered

theorem LoadStage.fits_unmounted (stage : LoadStage) : stage.Fits .unmounted := by
  cases stage <;> exact .inr rfl

theorem LoadStage.Fits.isRendered (fits : stage.Fits panel.phase) : panel.isRendered = false := by
  cases stage <;> rcases fits with h | h <;> simp [Panel.isRendered, h]

theorem isRendered_withdraw {phase : Phase} (hidden : phase ≠ .rendered ∧ phase ≠ .submitting)
    (problem : PanelProblem) : (panel.withdraw phase problem).isRendered = false := by
  rw [withdraw]
  split
  · next gone => simp [Panel.isRendered, gone]
  · simp [Panel.isRendered, hidden]

/-- A panel that is withdrawn gets out of the phases with a form. -/
theorem Advances.withdraw {phase : Phase} (hidden : phase ≠ .rendered ∧ phase ≠ .submitting)
    (problem : PanelProblem) : Advances panel (panel.withdraw phase problem) := by
  refine .of_hidden (fun gone ↦ ?_) (isRendered_withdraw hidden problem)
  rw [withdraw_of_unmounted gone]
  exact gone

theorem Advances.endLoad (hidden : panel.isRendered = false) (error : Remote.RequestError) :
    Advances panel (panel.endLoad error) := by
  cases error with
  | cancelled => exact .of_hidden id hidden
  | _ => exact .withdraw (by decide) _

/-- The answer to a request renders nothing, and a form is prepared for a panel that has its schema. -/
theorem receive_cases (hidden : panel.isRendered = false) (answer : Except Remote.RequestError Json) :
    Advances panel (panel.receive answer).1 ∧ (panel.receive answer).1.isRendered = false ∧
      ∀ schema metadata, (panel.receive answer).2 = .prepared schema metadata →
        (panel.receive answer).1.phase = .schemaLoaded := by
  by_cases gone : panel.phase = .unmounted
  · obtain ⟨⟨problem, same⟩, unprepared⟩ := receive_of_unmounted gone answer
    rw [same]
    exact ⟨.of_hidden id hidden, hidden, fun schema metadata h ↦ absurd h (unprepared schema metadata)⟩
  · unfold receive
    split
    · exact ⟨.withdraw (by decide) _, isRendered_withdraw (by decide) _, by simp⟩
    · exact ⟨.of_hidden id hidden, hidden, by simp⟩
    · rw [if_neg gone]
      split
      · rw [receiveSchema]
        split
        · exact ⟨.of_hidden (absurd · gone) rfl, rfl, by simp⟩
        · exact ⟨.of_hidden (absurd · gone) rfl, rfl, fun _ _ _ ↦ rfl⟩
      · exact ⟨.withdraw (by decide) _, isRendered_withdraw (by decide) _, by simp⟩

/-- A step of a load leads to a stage that fits again. -/
theorem LoadStage.Fits.next [EntryStore σ] (fits : stage.Fits panel.phase) (store : σ)
    (answer : Except Remote.RequestError Json) :
    Advances panel (stage.next store answer panel).1 ∧
      ∀ more ∈ (stage.next store answer panel).2, more.Fits (stage.next store answer panel).1.phase := by
  cases stage with
  | asking =>
    obtain ⟨advances, hidden, prepared⟩ := receive_cases fits.isRendered answer
    rw [LoadStage.next]
    cases received : panel.receive answer with
    | mk after receipt =>
      rw [received] at advances hidden prepared
      cases receipt with
      | settled => exact ⟨advances, by simp⟩
      | crashed error =>
        have ended := Advances.endLoad hidden error
        exact ⟨⟨ended.still ∘ advances.still, ended.free, ended.form⟩, by simp⟩
      | prepared schema metadata =>
        refine ⟨advances, fun more same ↦ ?_⟩
        cases same
        exact .inl (prepared schema metadata rfl)
  | reading schema metadata =>
    refine ⟨.of_hidden id fits.isRendered, fun more same ↦ ?_⟩
    cases same
    exact fits
  | holding schema metadata data =>
    refine ⟨?_, by simp [LoadStage.next]⟩
    rw [LoadStage.next, attach]
    split
    · exact .of_hidden id fits.isRendered
    · next mounted => exact ⟨(absurd · mounted), by simp, fun _ ↦ rfl⟩

/-! ### Submissions -/

theorem startSubmit_of_submitting (busy : panel.phase = .submitting) : panel.startSubmit = .busy :=
  if_pos busy

theorem startSubmit_of_rendered (rendered : panel.phase = .rendered) {form : Form.Live}
    (found : panel.form = some form) :
    panel.startSubmit =
      .sending { panel with phase := .submitting } (payloadOf panel.verb form.value) := by
  simp [startSubmit, rendered, found]

/-- However a submission ends, the panel is rendered again. -/
theorem endSubmit_of_submitting (busy : panel.phase = .submitting)
    (answer : Except Remote.RequestError Json) :
    ∃ response, (panel.endSubmit answer).panel = { panel with phase := .rendered, response } := by
  have freed : panel.freed = { panel with phase := .rendered } := if_pos busy
  cases answer with
  | ok response => exact ⟨.ofValue response, by simp [endSubmit, busy, freed]⟩
  | error error => cases error <;> exact ⟨panel.response, by simp [endSubmit, freed]⟩

namespace Activity

variable {a b : Activity σ} {event : Event σ}

/-- A panel that is loaded at most once: its phase tells what is under way, and it has a form whenever it
is rendered. -/
structure Orderly (a : Activity σ) : Prop where
  linked : Linked a.panel.phase a.sending
  single : a.loads.length ≤ 1
  fits : ∀ stage ∈ a.loads, stage.Fits a.panel.phase
  form : a.panel.isRendered = true → a.panel.form.isSome = true

theorem Orderly.of_same (h : Orderly a) (phase : b.panel.phase = a.panel.phase)
    (form : b.panel.form.isSome = a.panel.form.isSome) (loads : b.loads.Sublist a.loads)
    (sending : b.sending = a.sending) : Orderly b where
  linked := by
    rw [phase, sending]
    exact h.linked
  single := Nat.le_trans loads.length_le h.single
  fits stage mem := by
    rw [phase]
    exact h.fits stage (loads.subset mem)
  form := by
    rw [isRendered, phase, form]
    exact h.form

/-- The only load goes on or ends. -/
theorem Orderly.setLoad (h : Orderly a) (only : a.loads = [stage]) (advances : Advances a.panel after)
    {next : Option LoadStage} (fits : ∀ more ∈ next, more.Fits after.phase) :
    Orderly (a.setLoad 0 after next) := by
  have hidden : a.panel.isRendered = false := (h.fits stage (by simp [only])).isRendered
  have away : a.panel.phase ≠ .submitting := by
    intro busy
    simp [isRendered, busy] at hidden
  have linked : Linked after.phase a.sending := by
    refine ⟨h.linked.1, fun mounted ↦ ⟨fun busy ↦ absurd busy advances.free, fun one ↦ ?_⟩⟩
    exact absurd ((h.linked.2 fun gone ↦ mounted (advances.still gone)).mpr one) away
  cases next with
  | none => exact ⟨linked, by simp [Activity.setLoad, only], by simp [Activity.setLoad, only],
      advances.form⟩
  | some more => exact ⟨linked, by simp [Activity.setLoad, only],
      by simpa [Activity.setLoad, only] using fits, advances.form⟩

/-- A load that is at some place is the only one. -/
theorem Orderly.only (h : Orderly a) {load : Nat} (found : a.loads[load]? = some stage) :
    load = 0 ∧ a.loads = [stage] := by
  have single := h.single
  cases loads : a.loads with
  | nil => simp [loads] at found
  | cons first rest =>
    rw [loads] at found single
    obtain rfl : rest = [] := by simpa using single
    cases load with
    | zero => simpa using found
    | succ load => simp at found

theorem Orderly.underWay (h : Orderly a) (one : a.sending = 1) :
    a.panel.phase = .submitting ∨ a.panel.phase = .unmounted := by
  by_cases gone : a.panel.phase = .unmounted
  · exact .inr gone
  · exact .inl ((h.linked.2 gone).mpr one)

/-- The first load is asked for. -/
theorem Orderly.load (h : Orderly a) (fresh : a.panel.phase = .uninitialized) (unloaded : a.loads = []) :
    Orderly { a with loads := a.loads ++ [.asking] } := by
  refine ⟨h.linked, by simp [unloaded], fun stage mem ↦ ?_, h.form⟩
  obtain rfl : stage = .asking := by simpa [unloaded] using mem
  exact .inl fresh

theorem Orderly.submit (h : Orderly a) (rendered : a.panel.phase = .rendered) :
    Orderly
      { a with panel := { a.panel with phase := .submitting }, sending := a.sending + 1 } := by
  have idle : a.sending = 0 := by
    have link := h.linked
    simp [Linked, rendered] at link
    omega
  have unloaded : a.loads = [] := by
    refine List.eq_nil_iff_forall_not_mem.mpr fun stage mem ↦ ?_
    have hidden := (h.fits stage mem).isRendered
    simp [isRendered, rendered] at hidden
  exact ⟨by simp [Linked, idle], by simp [unloaded], by simp [unloaded],
    fun _ ↦ h.form (by simp [isRendered, rendered])⟩

theorem length_loads_setLoad (a : Activity σ) (load : Nat) (after : Panel) (next : Option LoadStage) :
    (a.setLoad load after next).loads.length ≤ a.loads.length := by
  cases next with
  | none => exact (List.eraseIdx_sublist _ _).length_le
  | some stage => simp [Activity.setLoad]

variable [EntryStore σ]

/-- A form with an emission, whose value is saved. -/
theorem Orderly.keep (h : Orderly a) (emission : Form.Live → Form.Emission) :
    Orderly (a.keep (a.panel.form.map fun form ↦ a.panel.afterEmission a.store (emission form))) := by
  cases here : a.panel.form with
  | none => exact h
  | some form =>
    obtain ⟨state, same⟩ := a.panel.afterEmission_eq a.store (emission form)
    exact h.of_same (by simp [Activity.keep, same]) (by simp [Activity.keep, same, here])
      (List.Sublist.refl _) rfl

/-- The answer to the submission under way: an unmounted panel stays as it is, any other is rendered. -/
theorem Orderly.answered (h : Orderly a) (underWay : a.sending ≠ 0)
    (answer : Except Remote.RequestError Json) :
    (a.perform (.answer answer)).sending = 0 ∧ (a.perform (.answer answer)).loads = a.loads ∧
      (a.panel.phase = .unmounted ∧ (a.perform (.answer answer)).panel = a.panel ∨
        a.panel.phase = .submitting ∧ ∃ response,
          (a.perform (.answer answer)).panel = { a.panel with phase := .rendered, response }) := by
  have one : a.sending = 1 := Nat.le_antisymm h.linked.1 (Nat.pos_of_ne_zero underWay)
  rw [Activity.perform, if_neg underWay, one]
  refine ⟨rfl, rfl, ?_⟩
  rcases h.underWay one with busy | gone
  · exact .inr ⟨busy, endSubmit_of_submitting busy answer⟩
  · exact .inl ⟨gone, (endSubmit_of_unmounted gone answer).1⟩

theorem Orderly.answer (h : Orderly a) (underWay : a.sending ≠ 0)
    (answer : Except Remote.RequestError Json) : Orderly (a.perform (.answer answer)) := by
  obtain ⟨ended, loads, ⟨gone, same⟩ | ⟨busy, response, same⟩⟩ := h.answered underWay answer
  · refine ⟨by simp [Linked, same, gone, ended], loads ▸ h.single, ?_, same ▸ h.form⟩
    rw [same, loads]
    exact h.fits
  · refine ⟨by simp [Linked, same, ended], loads ▸ h.single, fun stage mem ↦ ?_, fun _ ↦ ?_⟩
    · have hidden := (h.fits stage (loads ▸ mem)).isRendered
      simp [isRendered, busy] at hidden
    · rw [same]
      exact h.form (by simp [isRendered, busy])

/-- **Every event of a panel that is loaded once** leaves it orderly, but for a report from outside. -/
theorem Orderly.step (h : Orderly a) (step : Step a event b)
    (once : event.isLoad = true → a.loads = []) (own : event.isReport = false) : Orderly b := by
  cases step with
  | idle => exact h
  | load fresh => exact h.load fresh (once rfl)
  | proceed found answer =>
    obtain ⟨rfl, only⟩ := h.only found
    obtain ⟨advances, fits⟩ := (h.fits _ (List.mem_of_getElem? found)).next a.store answer
    exact h.setLoad only advances fits
  | crash there error =>
    obtain ⟨rfl, only⟩ := h.only (List.getElem?_eq_getElem there)
    have hidden := (h.fits _ (List.getElem_mem there)).isRendered
    exact h.setLoad only (.endLoad hidden error) (by simp)
  | abandon load => exact h.of_same rfl rfl (List.eraseIdx_sublist _ _) rfl
  | submit rendered => exact h.submit rendered
  | answer underWay answer =>
    have ended := h.answer underWay answer
    rwa [Activity.perform, if_neg underWay] at ended
  | setValue value trigger => exact h.keep (·.setValue value trigger)
  | emit trigger => exact h.keep (·.emit trigger)
  | listen listener => exact h.of_same rfl (by simp) (.refl _) rfl
  | notify saves =>
    obtain ⟨state, same⟩ := a.panel.saveForm_eq a.store
    exact h.of_same (by simp [same]) (by simp [same]) (.refl _) rfl
  | select displayed => exact h.of_same rfl rfl (.refl _) rfl
  | deselect => exact h.of_same rfl rfl (.refl _) rfl
  | report message => cases own
  | unmount =>
    exact ⟨⟨h.linked.1, absurd rfl⟩, h.single, fun stage _ ↦ stage.fits_unmounted,
      by simp [Panel.unmount, isRendered]⟩
  | elsewhere change messages => exact h.of_same rfl rfl (.refl _) rfl

/-- Only a load that is asked for adds to the loads under way. -/
theorem Step.length_loads (step : Step a event b) :
    b.loads.length ≤ a.loads.length + event.isLoad.toNat := by
  cases step with
  | idle => exact Nat.le_add_right _ _
  | load fresh => simp [Event.isLoad]
  | proceed found answer => exact a.length_loads_setLoad _ _ _
  | crash there error => exact a.length_loads_setLoad _ _ _
  | abandon load => exact a.length_loads_setLoad _ _ _
  | setValue value trigger => exact Nat.le_of_eq (congrArg List.length (a.loads_keep _))
  | emit trigger => exact Nat.le_of_eq (congrArg List.length (a.loads_keep _))
  | _ => exact Nat.le_refl _

/-- A run in which the load is asked for once, if it has not been asked for before. -/
theorem Orderly.run (h : Orderly a) {events : List (Event σ)}
    (once : a.loads.length + events.countP Event.isLoad ≤ 1)
    (own : ∀ event ∈ events, event.isReport = false) : Orderly (a.run events) := by
  induction events generalizing a with
  | nil => exact h
  | cons event events ih =>
    rw [List.countP_cons] at once
    have later := (a.step event).length_loads
    obtain ⟨here, rest⟩ := List.forall_mem_cons.mp own
    refine ih (h.step (a.step event) (fun isLoad ↦ ?_) here) ?_ rest
    · have unloaded : a.loads.length = 0 := by
        rw [isLoad, if_pos rfl] at once
        omega
      exact List.length_eq_zero_iff.mp unloaded
    · cases isLoad : event.isLoad <;> simp [isLoad] at once later <;> omega

/-- **One submission at a time, and never stuck.** In every run of a panel that is loaded once, at most
one submission is under way. While one is, the panel is submitting or unmounted, and another one sends
nothing: it is ignored, or refused where the panel is unmounted. However the one under way ends, the panel
is rendered again unless it is unmounted, and a rendered panel can submit. -/
theorem one_submission_at_a_time (verb path : String) (single : Bool) (store : σ)
    (alerts : List String) {events : List (Event σ)}
    (once : events.countP Event.isLoad ≤ 1) (own : ∀ event ∈ events, event.isReport = false) :
    let a := (start (Panel.make verb path single) store alerts).run events
    a.sending ≤ 1 ∧
      (a.panel.phase = .submitting → a.sending = 1) ∧
      (a.sending = 1 →
        (a.panel.phase = .submitting ∧ a.panel.startSubmit.unsent? = some (.ok ignored) ∨
          a.panel.phase = .unmounted ∧
            a.panel.startSubmit.unsent? =
              some (.error (.inPhase a.panel.verb a.panel.path .unmounted))) ∧
        a.perform .submit = a ∧
        ∀ answer, (a.perform (.answer answer)).sending = 0 ∧
          (a.perform (.answer answer)).panel.phase =
            if a.panel.phase = .unmounted then .unmounted else .rendered) ∧
      (a.panel.phase = .rendered → ∃ panel payload, a.panel.startSubmit = .sending panel payload) := by
  intro a
  have fresh : Orderly (start (Panel.make verb path single) store alerts) :=
    ⟨by simp [Linked, start, Panel.make], by simp [start], by simp [start],
      by simp [start, Panel.make, isRendered]⟩
  have h : Orderly a := fresh.run (by simpa [start] using once) own
  refine ⟨h.linked.1, fun busy ↦ ?_, fun one ↦ ⟨?_, ?_, fun answer ↦ ?_⟩, fun rendered ↦ ?_⟩
  · exact (h.linked.2 (by simp [busy])).mp busy
  · rcases h.underWay one with busy | gone
    · exact .inl ⟨busy, by rw [startSubmit_of_submitting busy]; rfl⟩
    · exact .inr ⟨gone, by rw [startSubmit_of_unmounted gone]; rfl⟩
  · rcases h.underWay one with busy | gone
    · rw [Activity.perform, startSubmit_of_submitting busy]
    · rw [Activity.perform, startSubmit_of_unmounted gone]
  · obtain ⟨ended, -, ⟨gone, same⟩ | ⟨busy, response, same⟩⟩ := h.answered (by simp [one]) answer
    · exact ⟨ended, by rw [same, gone, if_pos rfl]⟩
    · exact ⟨ended, by rw [same, busy, if_neg (by decide)]⟩
  · obtain ⟨form, found⟩ := Option.isSome_iff_exists.mp (h.form (by simp [isRendered, rendered]))
    exact ⟨_, _, startSubmit_of_rendered rendered found⟩

/-- A submission that comes too early, a load, and two submissions. -/
def eagerEvents : List (Event Store) :=
  [.submit, .load, .proceed 0 (.ok (.object [("type", .text "object")])),
    .proceed 0 (.error .closed), .proceed 0 (.error .closed), .submit, .submit]

/-- The second submission of a rendered panel is ignored; the first one is cancelled in the end. -/
theorem second_submission_ignored :
    let a := (start (Panel.make "get" "/a" false) (Store.memory []) []).run eagerEvents
    eagerEvents.countP Event.isLoad ≤ 1 ∧ (∀ event ∈ eagerEvents, event.isReport = false) ∧
      a.sending = 1 ∧ a.panel.startSubmit.unsent? = some (.ok ignored) ∧
      (a.perform (.answer (.error .cancelled))).panel.phase = .rendered := by
  intro a
  have once : eagerEvents.countP Event.isLoad ≤ 1 := by decide
  have own : ∀ event ∈ eagerEvents, event.isReport = false := by simp [eagerEvents, Event.isReport]
  obtain ⟨-, underWay, inFlight, -⟩ :=
    one_submission_at_a_time "get" "/a" false (Store.memory []) [] once own
  have plain : Schema.resolve (.object [("type", .text "object")]) =
      .ok (.object [("type", .text "object")]) :=
    Schema.resolve_single (by decide) (by simp) (by simp)
  have busy : ((start (Panel.make "get" "/a" false) (Store.memory []) []).run
      eagerEvents).panel.phase = .submitting := by
    simp [start, run, eagerEvents, perform, startSubmit, setLoad, LoadStage.next, receive, isDocument,
      receiveSchema, plain, attach, Panel.make]
  obtain ⟨⟨-, unsent⟩ | ⟨gone, -⟩, -, answered⟩ := inFlight (underWay busy)
  · refine ⟨once, own, underWay busy, unsent, ?_⟩
    rw [(answered _).2, busy, if_neg (by decide)]
  · rw [busy] at gone
    cases gone

end Activity

end Panel

end VerbForms
