import VerbForms.Host.Endpoint
import VerbForms.Proofs.Console.Evolution
import VerbForms.Proofs.Console.Selection
import VerbForms.Proofs.Panel.Unmounted
import VerbForms.Proofs.Text.UpperCase

/-!
# Panels that are fit to be submitted

A panel gets a form only when the request for its schema has found an address, and the gateway of a console
is closed only after its panels have been unmounted. So each panel that is rendered has a form and a
gateway that can send it (`Panel.Fit`), whatever its user and its console do with it (`Panel.Works`).
-/

namespace VerbForms

open Remote (Gateway)

/-- The gateway finds an address for its resource. -/
def Remote.Gateway.Reaches (gateway : Gateway) : Prop := ∃ address, gateway.addressOf "" = .ok address

theorem Remote.Gateway.closed_make {baseUrl resource : String} {gateway : Gateway}
    (made : make baseUrl resource = .ok gateway) : gateway.closed = false := by
  unfold make at made
  dsimp only at made
  split at made
  · cases made
  · split at made
    · cases made
      rfl
    · cases made

namespace Panel

variable {reached : Prop} {panel after last : Panel} {gateway : Gateway}

/-! ### What becomes of a panel -/

/-- What becomes of a panel: it stays the panel of its verb, is unmounted for good and never loses its
form. It is rendered only if it was, or if it has a form and its console has reached the resource. -/
structure Works (reached : Prop) (panel after : Panel) : Prop where
  verb : after.verb = panel.verb
  unmounted : panel.phase = .unmounted → after.phase = .unmounted
  form : panel.form.isSome = true → after.form.isSome = true
  rendered : after.isRendered = true →
    panel.isRendered = true ∨ reached ∧ after.form.isSome = true

theorem Works.refl (reached : Prop) (panel : Panel) : Works reached panel panel := ⟨rfl, id, id, .inl⟩

theorem Works.trans (h : Works reached panel after) (more : Works reached after last) :
    Works reached panel last where
  verb := more.verb.trans h.verb
  unmounted := more.unmounted ∘ h.unmounted
  form := more.form ∘ h.form
  rendered shown := by
    rcases more.rendered shown with before | fresh
    · exact (h.rendered before).imp_right fun ⟨reaches, form⟩ ↦ ⟨reaches, more.form form⟩
    · exact .inr fresh

instance (reached : Prop) : IsPreorder Panel (Works reached) where
  refl := .refl reached
  trans _ _ _ := .trans

/-- The loads and submissions of a panel depend on nothing else. -/
theorem works_of_outline (same : after.outline = panel.outline) : Works reached panel after := by
  simp only [outline, Prod.mk.injEq] at same
  obtain ⟨verb, phase, form⟩ := same
  exact ⟨verb, fun gone ↦ phase.trans gone, fun some ↦ form.trans some,
    fun shown ↦ .inl (by rwa [isRendered, ← phase])⟩

theorem Still.works (h : Still panel after)
    (unmounted : panel.phase = .unmounted → after.phase = .unmounted) :
    Works reached panel after :=
  ⟨h.verb, unmounted, fun some ↦ h.form ▸ some, fun shown ↦ .inl (h.isRendered shown)⟩

theorem works_withdraw {phase : Phase} (bare : phase = .hidden ∨ phase = .failed) (panel : Panel)
    (problem : PanelProblem) : Works reached panel (panel.withdraw phase problem) :=
  (still_withdraw bare panel problem).works fun gone ↦ by rw [withdraw_of_unmounted gone, gone]

theorem works_receive (panel : Panel) (answer : Except Remote.RequestError Json) :
    Works reached panel (panel.receive answer).1 := by
  refine (panel.still_receive answer).works fun gone ↦ ?_
  obtain ⟨⟨problem, same⟩, -⟩ := receive_of_unmounted gone answer
  rw [same, gone]

/-- Only a schema prepares a panel for a form. -/
theorem exists_ok_of_prepared {answer : Except Remote.RequestError Json} {schema : Json}
    {metadata : Form.Metadata} (received : panel.receive answer = (after, .prepared schema metadata)) :
    ∃ document, answer = .ok document := by
  unfold receive at received
  split at received
  · cases received
  · cases received
  · next document => exact ⟨document, rfl⟩

theorem works_unmount (panel : Panel) : Works reached panel panel.unmount :=
  panel.still_unmount.works fun _ ↦ rfl

theorem works_attach (reaches : reached) (panel : Panel) (schema : Json) (metadata : Form.Metadata)
    (data : Json) : Works reached panel (panel.attach schema metadata data) := by
  rw [attach]
  split
  · exact .refl reached panel
  · next mounted => exact ⟨rfl, fun gone ↦ absurd gone mounted, fun _ ↦ rfl, fun _ ↦ .inr ⟨reaches, rfl⟩⟩

theorem works_sending (rendered : panel.phase = .rendered) :
    Works reached panel { panel with phase := .submitting } :=
  ⟨rfl, fun gone ↦ (nomatch gone.symm.trans rendered), id, fun _ ↦ .inl (by rw [isRendered, rendered]; rfl)⟩

theorem works_endSubmit (panel : Panel) (answer : Except Remote.RequestError Json) :
    Works reached panel (panel.endSubmit answer).panel := by
  refine (panel.still_endSubmit answer).works fun gone ↦ ?_
  rw [(endSubmit_of_unmounted gone answer).1, gone]

/-- The user works on the form of the panel. -/
theorem works_afterEmission {σ : Type} [EntryStore σ] (panel : Panel) (store : σ) (run : Form.Emission) :
    Works reached panel (panel.afterEmission store run).1 := by
  obtain ⟨state, same⟩ := panel.afterEmission_eq store run
  rw [same]
  exact ⟨rfl, id, fun _ ↦ rfl, .inl⟩

theorem works_setValue {σ : Type} [EntryStore σ] {store next : σ} {value : Json} {trigger : Option String}
    (set : panel.setValue store value trigger = some (after, next)) : Works reached panel after := by
  obtain ⟨form, -, emitted⟩ := Option.map_eq_some_iff.mp set
  have works : Works reached panel (panel.afterEmission store (form.setValue value trigger)).1 :=
    panel.works_afterEmission store _
  rwa [emitted] at works

/-! ### Panels that are fit -/

/-- The panel is fit to be submitted by way of a gateway: its verb is a method, it has a form and an address
for it where it is rendered, and it is not rendered where the gateway is closed. -/
structure Fit (gateway : Gateway) (panel : Panel) : Prop where
  verb : Text.upper panel.verb = panel.verb
  form : panel.isRendered = true → panel.form.isSome = true ∧ gateway.Reaches
  closed : gateway.closed = true → panel.phase = .unmounted

theorem fit_make (verb path : String) (single : Bool) (opened : gateway.closed = false) :
    (make verb path single).Fit gateway where
  verb := Text.upper_upper verb
  form shown := by cases shown
  closed shut := by rw [opened] at shut; cases shut

theorem Fit.works (h : panel.Fit gateway) (works : Works gateway.Reaches panel after) :
    after.Fit gateway where
  verb := works.verb ▸ h.verb
  form shown := by
    rcases works.rendered shown with before | ⟨reaches, form⟩
    · exact ⟨works.form (h.form before).1, (h.form before).2⟩
    · exact ⟨form, reaches⟩
  closed := works.unmounted ∘ h.closed

theorem Fit.close (h : panel.Fit gateway) : panel.unmount.Fit gateway.close where
  verb := h.verb
  form shown := by cases shown
  closed _ := rfl

end Panel

namespace Console

variable {console after last : Console}

/-- All panels are fit to be submitted. -/
def Fit (console : Console) : Prop := ∀ panel ∈ console.panels, panel.Fit console.gateway

/-- Nothing has happened to the console. -/
structure IsFresh (console : Console) : Prop where
  opened : console.gateway.closed = false
  panels : ∀ panel ∈ console.panels, ∃ verb path single, panel = Panel.make verb path single

/-- The console keeps its gateway, and its panels work. -/
structure Works (console after : Console) : Prop where
  gateway : after.gateway = console.gateway
  panels : List.Forall₂ (Panel.Works console.gateway.Reaches) console.panels after.panels

theorem IsFresh.fit (h : console.IsFresh) : console.Fit := by
  intro panel mem
  obtain ⟨verb, path, single, rfl⟩ := h.panels panel mem
  exact Panel.fit_make verb path single h.opened

theorem isFresh_build {baseUrl path : String} {verbs : List String} {single : Bool}
    (built : build baseUrl path verbs single = .ok console) : console.IsFresh := by
  rw [build] at built
  split at built
  · next gateway made =>
    rw [make_eq_ok built]
    refine ⟨Gateway.closed_make made, fun panel mem ↦ ?_⟩
    obtain ⟨verb, -, rfl⟩ := List.mem_map.mp mem
    exact ⟨verb, path, single, rfl⟩
  · cases built

theorem Works.refl (console : Console) : Works console console :=
  ⟨rfl, List.forall₂_refl console.panels⟩

theorem works_of_outline (gateway : after.gateway = console.gateway)
    (panels : after.panels.map Panel.outline = console.panels.map Panel.outline) : Works console after := by
  have same : List.Forall₂ (· = ·) (console.panels.map Panel.outline) (after.panels.map Panel.outline) := by
    rw [panels]
    exact List.forall₂_refl _
  exact ⟨gateway, (List.forall₂_map_left_iff.mp (List.forall₂_map_right_iff.mp same)).imp
    fun _ _ same ↦ Panel.works_of_outline same.symm⟩

theorem works_setPanel (console : Console) (index : Nat) {panel : Panel}
    (step : ∀ old, console.panels[index]? = some old → Panel.Works console.gateway.Reaches old panel) :
    Works console (console.setPanel index panel) := by
  refine ⟨rfl, ?_⟩
  rw [setPanel, List.set_eq_modify]
  exact forall₂_modify console.panels index step

theorem works_showOnly (console : Console) (verb : String) : Works console (console.showOnly verb) :=
  works_of_outline rfl (console.outline_showOnly verb)

theorem works_selectFirst (console : Console) : Works console console.selectFirst := by
  rcases console.selectFirst_cases with ⟨panel, -, -, same⟩ | ⟨same, -⟩
  · rw [same]
    exact console.works_showOnly panel.verb
  · rw [same]
    exact .refl console

theorem works_receiveResource (console : Console) (answer : Except Remote.RequestError Json) :
    Works console (console.receiveResource answer).1 := by
  unfold receiveResource
  split <;> exact works_of_outline rfl rfl

/-- An errand of the host. -/
theorem works_perform (console : Console) (store : Store) (errand : Host.Errand) :
    Works console (Host.perform console store errand).console := by
  cases errand with
  | read | copy => exact .refl console
  | select verb =>
    unfold Host.perform
    dsimp only
    split
    · next after _ selected =>
      obtain ⟨panel, -, -, rfl, -⟩ := select_eq_ok_iff.mp selected
      exact console.works_showOnly panel.verb
    · exact .refl console
    · exact .refl console
  | setValue verb value trigger =>
    unfold Host.perform
    dsimp only
    split
    · next index panel found =>
      have here : console.panels[index]? = some panel := by
        obtain ⟨place, -, found⟩ := Option.bind_eq_some_iff.mp found
        obtain ⟨old, here, same⟩ := Option.map_eq_some_iff.mp found
        obtain ⟨rfl, rfl⟩ := Prod.mk.inj same
        exact here
      unfold Host.setValue
      dsimp only
      split
      · split
        · next after next set =>
          refine console.works_setPanel index fun old there ↦ ?_
          rw [here] at there
          exact Option.some.inj there ▸ Panel.works_setValue set
        · exact .refl console
      · exact .refl console
    · exact .refl console
  | submit verb =>
    unfold Host.perform
    dsimp only
    split <;> exact .refl console
  | interact trigger =>
    unfold Host.perform
    dsimp only
    split
    · next after _ notified =>
      unfold notifyAll at notified
      split at notified
      · cases notified
        exact works_of_outline rfl (map_savePanels Panel.outline (fun _ _ ↦ rfl) store console.panels)
      · cases notified
    · exact .refl console

theorem Fit.works (h : console.Fit) (works : Works console after) : after.Fit := by
  intro panel mem
  obtain ⟨index, found⟩ := List.getElem?_of_mem mem
  obtain ⟨before, there, step⟩ := forall₂_getElem? works.panels found
  rw [works.gateway]
  exact (h before (List.mem_of_getElem? there)).works step

theorem Fit.close (h : console.Fit) : console.close.Fit := by
  intro panel mem
  obtain ⟨before, there, rfl⟩ := List.mem_map.mp mem
  exact (h before there).close

end Console

end VerbForms
