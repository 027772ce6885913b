import VerbForms.Proofs.Console.Activity
import VerbForms.Proofs.Console.Selection

/-!
# The visible panel

Whether a panel is visible is written by selections and by what takes forms away; its phase is written by
loads and submissions. Both stay consistent whatever happens in which order (`Activity.Sound`), and no
panel of a closed console gets visible again (`Activity.Shut`).
-/

namespace VerbForms.Console

variable {console : Console} {panel : Panel} {verb : String}

/-! ### Consoles at work -/

namespace Activity

variable {σ : Type} {a b : Activity σ} {index : Nat}

/-- The panels of a console at work have different verbs, their phases tell what is under way, and no
load has still to begin where one is under way. -/
structure Steady (a : Activity σ) : Prop where
  distinct : (a.console.panels.map Panel.verb).Nodup
  orderly : ∀ index panel, a.console.panels[index]? = some panel → (a.panelAt index panel).Orderly
  unbegun : ∀ index < a.console.panels.length,
    (a.work index).due = true → (a.work index).loads = []

/-- A console at work whose start has been asked for at most once: before its start and after the end of
it no load is under way. -/
structure Sound (a : Activity σ) : Prop where
  steady : Steady a
  shown : Shown a.console
  loaded : a.start = .notYet ∨ a.start = .returned → a.isLoaded = true
  lit : a.start = .returned → Lit a.console

theorem isLoaded_iff :
    a.isLoaded = true ↔ ∀ index < a.console.panels.length, (a.work index).isLoaded = true := by
  simp [isLoaded]

theorem fail_cases (start : Start) : start.fail = start ∨ start.fail = .failed := by
  cases start <;> simp [Start.fail]

theorem panels_receiveResource (console : Console) (answer : Except Remote.RequestError Json) :
    (console.receiveResource answer).1.panels = console.panels := by
  cases answer with
  | ok value => rfl
  | error error => cases error <;> rfl

/-- Events that leave the outlines of the panels and what is under way. -/
theorem Steady.of_outline (h : Steady a)
    (outline : b.console.panels.map Panel.outline = a.console.panels.map Panel.outline)
    (work : b.work = a.work) : Steady b where
  distinct := by
    have verbs (panels : List Panel) :
        panels.map Panel.verb = (panels.map Panel.outline).map (·.1) := by
      rw [List.map_map]
      rfl
    rw [verbs, outline, ← verbs]
    exact h.distinct
  orderly index panel found := by
    have here := congrArg (·[index]?) outline
    simp only [List.getElem?_map, found, Option.map_some] at here
    obtain ⟨other, there, alike⟩ := Option.map_eq_some_iff.mp here.symm
    simp only [Panel.outline, Prod.mk.injEq] at alike
    refine (h.orderly index other there).of_same alike.2.1.symm alike.2.2.symm ?_ ?_
    · simp [panelAt, work]
    · simp [panelAt, work]
  unbegun := by
    have length := congrArg List.length outline
    rw [List.length_map, List.length_map] at length
    rw [work, length]
    exact h.unbegun

theorem isLoaded_of_outline (loaded : a.isLoaded = true)
    (outline : b.console.panels.map Panel.outline = a.console.panels.map Panel.outline)
    (work : b.work = a.work) : b.isLoaded = true := by
  have length := congrArg List.length outline
  rw [List.length_map, List.length_map] at length
  rw [isLoaded, work, length]
  exact loaded

/-- Events that leave the panels and what is under way for them, whether or not the start fails. -/
theorem Sound.of_panels (h : Sound a) (panels : b.console.panels = a.console.panels)
    (work : b.work = a.work) (start : b.start = a.start ∨ b.start = .failed) : Sound b where
  steady := h.steady.of_outline (congrArg _ panels) work
  shown := h.shown.of_display (congrArg _ panels)
  loaded idle := by
    rcases start with same | failed
    · exact isLoaded_of_outline (h.loaded (same ▸ idle)) (congrArg _ panels) work
    · simp [failed] at idle
  lit returned := by
    rcases start with same | failed
    · exact (h.lit (same ▸ returned)).of_display (congrArg _ panels)
    · simp [failed] at returned

/-- Something happens to a panel: it stays on display as it is, unless a load is under way. -/
theorem Sound.put (h : Sound a) (found : a.console.panels[index]? = some panel) {due : Bool}
    {after : Panel.Activity σ} (orderly : after.Orderly) (unbegun : due = true → after.loads = [])
    (loaded : (a.work index).isLoaded = true → due = false ∧ after.loads = [])
    (display : Panel.Quiet panel after.panel ∨
      (a.work index).isLoaded = false ∧ panel.isRendered = false ∧
        Panel.Remains panel after.panel) :
    Sound (a.put index due after) := by
  obtain ⟨bound, -⟩ := List.getElem?_eq_some_iff.mp found
  have verb : after.panel.verb = panel.verb := by
    rcases display with quiet | ⟨-, -, remains⟩
    · exact quiet.verb
    · exact remains.verb
  have stillLoaded (idle : a.isLoaded = true) : (a.put index due after).isLoaded = true := by
    rw [isLoaded_iff] at idle ⊢
    intro other below
    rw [Activity.put, setPanel, List.length_set] at below
    by_cases same : other = index
    · obtain ⟨begun, ended⟩ := loaded (idle index bound)
      simp [Activity.put, same, begun, ended, Work.isLoaded]
    · simpa [Activity.put, same] using idle other below
  refine ⟨⟨?_, fun other panel' found' ↦ ?_, fun other below due' ↦ ?_⟩, ?_, fun idle ↦ ?_,
    fun returned ↦ ?_⟩
  · rw [Activity.put, setPanel, map_set_of_eq Panel.verb found verb]
    exact h.steady.distinct
  · rw [Activity.put, setPanel] at found'
    by_cases same : other = index
    · subst same
      rw [List.getElem?_set_self bound, Option.some.injEq] at found'
      subst found'
      exact orderly.of_same rfl rfl (by simp [panelAt, Activity.put]) (by simp [panelAt, Activity.put])
    · rw [List.getElem?_set_ne (Ne.symm same)] at found'
      refine (h.steady.orderly other panel' found').of_same rfl rfl ?_ ?_
      · simp [panelAt, Activity.put, same]
      · simp [panelAt, Activity.put, same]
  · rw [Activity.put, setPanel, List.length_set] at below
    by_cases same : other = index
    · simp only [Activity.put, same, if_true] at due' ⊢
      exact unbegun due'
    · simp only [Activity.put, same, if_false] at due' ⊢
      exact h.steady.unbegun other below due'
  · rcases display with quiet | ⟨-, hidden, remains⟩
    · exact h.shown.of_display (map_set_of_eq Panel.display found quiet.display)
    · have dark := h.shown.set found hidden remains.hidden
      exact ⟨dark.rendered, dark.single⟩
  · exact stillLoaded (h.loaded idle)
  · rcases display with quiet | ⟨going, -, -⟩
    · exact (h.lit returned).of_display (map_set_of_eq Panel.display found quiet.display)
    · rw [isLoaded_iff.mp (h.loaded (.inr returned)) index bound] at going
      cases going

/-- A panel that has a form is made the only visible one. -/
theorem Sound.showOnly (h : Sound a) (mem : panel ∈ a.console.panels)
    (rendered : panel.isRendered = true) {start : Start}
    (loaded : start = .notYet ∨ start = .returned → a.isLoaded = true) :
    Sound { a with console := a.console.showOnly panel.verb, start } := by
  have outline := outline_showOnly a.console panel.verb
  obtain ⟨shown, lit⟩ := shown_showOnly h.steady.distinct mem rendered
  refine ⟨h.steady.of_outline outline rfl, shown, fun idle ↦ ?_, fun _ ↦ lit⟩
  exact isLoaded_of_outline (loaded idle) outline rfl

theorem sound_fresh {path : String} {verbs : List String} {single : Bool} {gateway : Remote.Gateway}
    (made : Console.make path verbs single gateway = .ok console) (store : σ) :
    Sound (fresh console store) := by
  have distinct : (console.panels.map Panel.verb).Nodup := by
    rw [verbs_make made]
    exact nodup_verbsOf verbs single
  have isFresh (panel : Panel) (mem : panel ∈ console.panels) :
      ∃ verb, panel = .make verb path single := by
    rw [make_eq_ok made] at mem
    obtain ⟨verb, -, rfl⟩ := List.mem_map.mp mem
    exact ⟨verb, rfl⟩
  have hidden (panel : Panel) (mem : panel ∈ console.panels) : panel.visible = false := by
    obtain ⟨verb, rfl⟩ := isFresh panel mem
    rfl
  refine ⟨⟨distinct, fun index panel found ↦ ?_, fun _ _ _ ↦ rfl⟩, ⟨fun panel mem visible ↦ ?_, ?_⟩,
    fun _ ↦ isLoaded_iff.mpr fun _ _ ↦ rfl, fun returned ↦ by cases returned⟩
  · obtain ⟨verb, rfl⟩ := isFresh panel (List.mem_of_getElem? found)
    refine ⟨?_, Nat.zero_le 1, fun stage mem ↦ ?_, fun rendered ↦ ?_⟩
    · simp [Panel.Linked, panelAt, fresh, Work.none, Panel.make]
    · cases mem
    · cases rendered
  · rw [hidden panel mem] at visible
    cases visible
  · have none : console.panels.countP (·.visible) = 0 :=
      List.countP_eq_zero.mpr fun panel mem ↦ by simp [hidden panel mem]
    exact Nat.le_trans (Nat.le_of_eq none) (Nat.zero_le 1)

/-- All panels are unmounted and hidden. -/
def Shut (console : Console) : Prop :=
  ∀ panel ∈ console.panels, panel.phase = .unmounted ∧ panel.visible = false

theorem Shut.not_rendered (h : Shut console) (mem : panel ∈ console.panels) :
    panel.isRendered = false := by
  simp [Panel.isRendered, (h panel mem).1]

theorem Shut.put (h : Shut a.console) (index : Nat) (due : Bool) {after : Panel.Activity σ}
    (phase : after.panel.phase = .unmounted) (visible : after.panel.visible = false) :
    Shut (a.put index due after).console := by
  intro panel mem
  rcases List.mem_or_eq_of_mem_set mem with old | rfl
  · exact h panel old
  · exact ⟨phase, visible⟩

variable [EntryStore σ]

/-- All panels are unmounted. -/
theorem Sound.unmount (h : Sound a) (console : Console)
    (panels : console.panels = a.console.panels.map Panel.unmount) : Sound { a with console } := by
  have hidden (panel : Panel) (mem : panel ∈ console.panels) :
      panel.visible = false ∧ panel.isRendered = false := by
    rw [panels] at mem
    obtain ⟨panel, -, rfl⟩ := List.mem_map.mp mem
    exact ⟨rfl, rfl⟩
  refine ⟨⟨?_, fun index panel found ↦ ?_, ?_⟩, ⟨fun panel mem visible ↦ ?_, ?_⟩, fun idle ↦ ?_, ?_⟩
  · rw [panels, List.map_map]
    exact h.steady.distinct
  · rw [panels, List.getElem?_map] at found
    obtain ⟨before, there, rfl⟩ := Option.map_eq_some_iff.mp found
    have unmounted : ((a.panelAt index before).perform .unmount).Orderly :=
      (h.steady.orderly index before there).step (Panel.Activity.step _ _) (fun asks ↦ by cases asks) rfl
    exact unmounted.of_same rfl rfl (.refl _) rfl
  · rw [panels, List.length_map]
    exact h.steady.unbegun
  · rw [(hidden panel mem).1] at visible
    cases visible
  · rw [List.countP_eq_zero.mpr fun panel mem ↦ by simp [(hidden panel mem).1]]
    exact Nat.zero_le 1
  · have loaded := h.loaded idle
    rw [isLoaded] at loaded ⊢
    rw [panels, List.length_map]
    exact loaded
  · rintro - ⟨panel, mem, rendered⟩
    rw [(hidden panel mem).2] at rendered
    cases rendered

/-- The load of a panel begins. -/
theorem Sound.begin (h : Sound a) (index : Nat) : Sound (a.perform (.begin index)) := by
  rw [perform]
  split
  · next panel found =>
    split
    · next due =>
      obtain ⟨bound, -⟩ := List.getElem?_eq_some_iff.mp found
      have unloaded := h.steady.unbegun index bound due
      have same : ((a.panelAt index panel).perform .load).panel = panel :=
        Panel.Activity.panel_load _
      have orderly := (h.steady.orderly index panel found).step (Panel.Activity.step _ .load)
        (fun _ ↦ unloaded) rfl
      refine h.put found orderly (by simp) ?_ (.inl ?_)
      · simp [Work.isLoaded, due]
      · rw [same]
        exact .refl panel
    · exact h
  · exact h

/-- Something happens to a panel by itself. -/
theorem Sound.own (h : Sound a) (index : Nat) (event : Panel.Event σ) :
    Sound (a.perform (.panel index event)) := by
  rw [perform]
  split
  · next panel found =>
    split
    · next own =>
      obtain ⟨bound, -⟩ := List.getElem?_eq_some_iff.mp found
      have orderly := h.steady.orderly index panel found
      have step := (a.panelAt index panel).step event
      obtain ⟨noLoad, noReport⟩ := Panel.Event.foreign_of_isOwn own
      have unloaded (idle : (a.work index).loads = []) :
          ((a.panelAt index panel).perform event).loads = [] := by
        have fewer := step.length_loads
        have none : (a.panelAt index panel).loads.length = 0 := List.length_eq_zero_iff.mpr idle
        rw [noLoad, none] at fewer
        exact List.length_eq_zero_iff.mp (Nat.le_zero.mp fewer)
      refine h.put found (orderly.step step (by simp [noLoad]) noReport) ?_ ?_ ?_
      · exact fun due ↦ unloaded (h.steady.unbegun index bound due)
      · intro loaded
        simp only [Work.isLoaded, Bool.and_eq_true, Bool.not_eq_true', List.isEmpty_iff] at loaded
        exact ⟨loaded.1, unloaded loaded.2⟩
      · refine (orderly.display step own).imp id ?_
        rintro ⟨going, hidden, remains⟩
        have busy : (a.work index).loads ≠ [] := going
        exact ⟨by simp [Work.isLoaded, busy], hidden, remains⟩
    · exact h
  · exact h

theorem Sound.select (h : Sound a) (verb : String) : Sound (a.perform (.select verb)) := by
  rw [perform]
  split
  · next after shown selected =>
    obtain ⟨panel, found, rendered, rfl, rfl⟩ := select_eq_ok_iff.mp selected
    exact h.showOnly (List.mem_of_find?_eq_some found) rendered h.loaded
  · exact h

/-- The start comes to its end. -/
theorem Sound.finish (h : Sound a) : Sound (a.perform .finish) := by
  rw [perform]
  split
  · next ended =>
    rcases a.console.selectFirst_cases with ⟨panel, mem, rendered, same⟩ | ⟨same, lit⟩
    · rw [same]
      exact h.showOnly mem rendered fun _ ↦ ended.2.2
    · rw [same]
      exact ⟨h.steady.of_outline rfl rfl, h.shown, fun _ ↦ ended.2.2, fun _ ↦ lit⟩
  · exact h

theorem Sound.notifyAll (h : Sound a) (trigger : String) :
    Sound (a.perform (.notifyAll trigger)) := by
  rw [perform, Console.notifyAll]
  split
  · next saved =>
    split at saved
    · cases saved
      have outline := map_savePanels Panel.outline (fun _ _ ↦ rfl) a.store a.console.panels
      have display := map_savePanels Panel.display (fun _ _ ↦ rfl) a.store a.console.panels
      refine ⟨h.steady.of_outline outline rfl, h.shown.of_display display, fun idle ↦ ?_,
        fun returned ↦ (h.lit returned).of_display display⟩
      exact isLoaded_of_outline (h.loaded idle) outline rfl
    · cases saved
  · exact h

/-- **Every event keeps what is shown consistent with what the panels are at**, as long as the start is
asked for once. -/
theorem Sound.perform (h : Sound a) {event : Event σ}
    (once : event.isStart = true → a.start = .notYet) : Sound (a.perform event) := by
  cases event with
  | start =>
    have idle := isLoaded_iff.mp (h.loaded (.inl (once rfl)))
    refine ⟨⟨h.steady.distinct, h.steady.orderly, fun index below _ ↦ ?_⟩, h.shown,
      fun running ↦ by simp [Activity.perform] at running, fun running ↦ by cases running⟩
    have loaded := idle index below
    simp only [Work.isLoaded, Bool.and_eq_true, List.isEmpty_iff] at loaded
    exact loaded.2
  | begin index => exact h.begin index
  | read answer =>
    rw [Activity.perform]
    split
    · refine h.of_panels (panels_receiveResource a.console answer) rfl ?_
      dsimp only
      split
      · exact fail_cases a.start
      · exact .inl rfl
    · exact h
  | finish => exact h.finish
  | cancel => exact h.of_panels rfl rfl (fail_cases a.start)
  | panel index event => exact h.own index event
  | select verb => exact h.select verb
  | notifyAll trigger => exact h.notifyAll trigger
  | copy => exact h
  | unmount => exact h.unmount _ rfl
  | close => exact h.unmount _ rfl
  | elsewhere change => exact h.of_panels rfl rfl (.inl rfl)

/-- Only the asking for the start makes it begin. -/
theorem start_perform {event : Event σ} (other : event.isStart = false) (notYet : a.start = .notYet) :
    (a.perform event).start = .notYet := by
  cases event with
  | start => cases other
  | begin index =>
    rw [perform]
    split
    · split <;> exact notYet
    · exact notYet
  | read answer =>
    rw [perform]
    split
    · dsimp only
      rw [notYet]
      split <;> rfl
    · exact notYet
  | finish =>
    rw [perform, if_neg fun ended ↦ by simp [notYet] at ended]
    exact notYet
  | cancel =>
    rw [perform, notYet]
    rfl
  | panel index event =>
    rw [perform]
    split
    · split <;> exact notYet
    · exact notYet
  | select verb =>
    rw [perform]
    split <;> exact notYet
  | notifyAll trigger =>
    rw [perform]
    split <;> exact notYet
  | _ => exact notYet

/-- What every event keeps, every run keeps in which the start is asked for once. -/
theorem Sound.run (h : Sound a) {events : List (Event σ)}
    (once : events.countP Event.isStart ≤ if a.start = .notYet then 1 else 0) : Sound (a.run events) := by
  induction events generalizing a with
  | nil => exact h
  | cons event events ih =>
    rw [List.countP_cons] at once
    cases isStart : event.isStart with
    | false =>
      rw [isStart] at once
      refine ih (h.perform fun asked ↦ by simp [isStart] at asked) (Nat.le_trans once ?_)
      split
      · next notYet =>
        exact Nat.le_of_eq (if_pos (start_perform isStart notYet)).symm
      · exact Nat.zero_le _
    | true =>
      rw [isStart, if_pos rfl] at once
      split at once
      · next notYet =>
        have noMore : events.countP Event.isStart = 0 := by omega
        refine ih (h.perform fun _ ↦ notYet) ?_
        rw [noMore]
        exact Nat.zero_le _
      · omega

/-! ### Closed consoles -/

/-- No event mounts or shows a panel of a closed console. -/
theorem Shut.perform (h : Shut a.console) (event : Event σ) : Shut (a.perform event).console := by
  have unmounted : Shut a.console.unmount := by
    intro panel mem
    obtain ⟨panel, -, rfl⟩ := List.mem_map.mp mem
    exact ⟨rfl, rfl⟩
  cases event with
  | begin index =>
    rw [Activity.perform]
    split
    · next panel found =>
      obtain ⟨phase, visible⟩ := h panel (List.mem_of_getElem? found)
      split
      · have same : ((a.panelAt index panel).perform .load).panel = panel :=
          Panel.Activity.panel_load _
        refine h.put index false ?_ ?_
        · rw [same]
          exact phase
        · rw [same]
          exact visible
      · exact h
    · exact h
  | read answer =>
    rw [Activity.perform]
    split
    · rw [Shut, panels_receiveResource]
      exact h
    · exact h
  | finish =>
    rw [Activity.perform]
    split
    · rcases a.console.selectFirst_cases with ⟨panel, mem, rendered, -⟩ | ⟨same, -⟩
      · rw [h.not_rendered mem] at rendered
        cases rendered
      · rw [same]
        exact h
    · exact h
  | panel index event =>
    rw [Activity.perform]
    split
    · next panel found =>
      obtain ⟨phase, visible⟩ := h panel (List.mem_of_getElem? found)
      split
      · have retired : Panel.Activity.Retired panel (a.panelAt index panel) := ⟨phase, visible, rfl, rfl⟩
        obtain ⟨after, -⟩ := retired.step (Panel.Activity.step _ event)
        exact h.put index _ after.phase after.visible
      · exact h
    · exact h
  | select verb =>
    rw [Activity.perform]
    split
    · next after shown selected =>
      obtain ⟨panel, found, rendered, -⟩ := select_eq_ok_iff.mp selected
      rw [h.not_rendered (List.mem_of_find?_eq_some found)] at rendered
      cases rendered
    · exact h
  | notifyAll trigger =>
    rw [Activity.perform, Console.notifyAll]
    split
    · next saved =>
      split at saved
      · cases saved
        intro panel mem
        have same := map_savePanels (fun panel ↦ (panel.phase, panel.visible)) (fun _ _ ↦ rfl)
          a.store a.console.panels
        have mapped := List.mem_map_of_mem (f := fun panel ↦ (panel.phase, panel.visible)) mem
        rw [same] at mapped
        obtain ⟨before, mem, alike⟩ := List.mem_map.mp mapped
        have before := h before mem
        simp only [Prod.mk.injEq] at alike
        exact ⟨alike.1 ▸ before.1, alike.2 ▸ before.2⟩
      · cases saved
    · exact h
  | unmount => exact unmounted
  | close => exact unmounted
  | start => exact h
  | cancel => exact h
  | copy => exact h
  | elsewhere change => exact h

/-- What no event does, no run does. -/
theorem Shut.run (h : Shut a.console) (events : List (Event σ)) : Shut (a.run events).console := by
  induction events generalizing a with
  | nil => exact h
  | cons event events ih => exact ih (h.perform event)

/-- **Visible means rendered, and at most one.** In every run of a console whose start is asked for once,
at most one panel is visible, and it has a form and is rendered or submitting. A selection succeeds
exactly on a panel with a form and leaves it the only visible one, and one that fails changes nothing.
Once the start has returned, a panel is visible if and only if one is rendered or submitting; and after
the closing no panel gets visible, whatever was under way. -/
theorem visible_iff_rendered {path : String} {verbs : List String} {single : Bool}
    {gateway : Remote.Gateway} (made : Console.make path verbs single gateway = .ok console)
    (store : σ) {events : List (Event σ)} (once : events.countP Event.isStart ≤ 1) :
    let a := (fresh console store).run events
    a.console.panels.countP (·.visible) ≤ 1 ∧
      (∀ panel ∈ a.console.panels, panel.visible = true →
        (panel.phase = .rendered ∨ panel.phase = .submitting) ∧ panel.form.isSome = true) ∧
      (∀ verb, (∃ after shown, a.console.select verb = .ok (after, shown)) ↔
        ∃ panel ∈ a.console.panels, panel.verb = Text.upper verb ∧
          (panel.phase = .rendered ∨ panel.phase = .submitting)) ∧
      (∀ verb after shown, a.console.select verb = .ok (after, shown) →
        (a.perform (.select verb)).console = after ∧
          (after.panels.filter (·.visible)).map Panel.verb = [Text.upper verb]) ∧
      (∀ verb error, a.console.select verb = .error error → a.perform (.select verb) = a) ∧
      (a.start = .returned →
        ((∃ panel ∈ a.console.panels, panel.visible = true) ↔
          ∃ panel ∈ a.console.panels, panel.phase = .rendered ∨ panel.phase = .submitting)) ∧
      ∀ later, ∀ panel ∈ ((a.perform .close).run later).console.panels, panel.visible = false := by
  intro a
  have h : Sound a := (sound_fresh made store).run once
  refine ⟨h.shown.single, fun panel mem visible ↦ ?_, fun verb ↦ ?_, fun verb after shown selected ↦ ?_,
    fun verb error refused ↦ ?_, fun returned ↦ ?_, fun later ↦ ?_⟩
  · have rendered := h.shown.rendered panel mem visible
    obtain ⟨index, found⟩ := List.mem_iff_getElem?.mp mem
    exact ⟨Panel.isRendered_iff.mp rendered, (h.steady.orderly index panel found).form rendered⟩
  · constructor
    · rintro ⟨after, shown, selected⟩
      obtain ⟨panel, found, rendered, -⟩ := select_eq_ok_iff.mp selected
      obtain ⟨mem, named⟩ := mem_of_find?_verb found
      exact ⟨panel, mem, named, Panel.isRendered_iff.mp rendered⟩
    · rintro ⟨panel, mem, named, rendered⟩
      have found := find?_verb_eq h.steady.distinct mem
      rw [named] at found
      exact ⟨_, _, select_eq_ok_iff.mpr ⟨panel, found, Panel.isRendered_iff.mpr rendered, rfl, rfl⟩⟩
  · rw [Activity.perform, selected]
    obtain ⟨panel, found, -, rfl, -⟩ := select_eq_ok_iff.mp selected
    obtain ⟨mem, named⟩ := mem_of_find?_verb found
    rw [visible_showOnly h.steady.distinct mem]
    exact ⟨rfl, congrArg ([·]) named⟩
  · rw [Activity.perform, refused]
  · simp only [← Panel.isRendered_iff]
    refine ⟨fun ⟨panel, mem, visible⟩ ↦ ?_, h.lit returned⟩
    exact ⟨panel, mem, h.shown.rendered panel mem visible⟩
  · have shut : Shut (a.perform .close).console := by
      intro panel mem
      obtain ⟨panel, -, rfl⟩ := List.mem_map.mp mem
      exact ⟨rfl, rfl⟩
    exact fun panel mem ↦ (shut.run later panel mem).2

/-- A fresh console with two panels. -/
def twoPanels : Console :=
  .ofPanels "/a" false [.make "GET" "/a" false, .make "POST" "/a" false] default

/-- A start in which one load ends with an error after the other one has attached its form, and a
submission. -/
def halfStart : List (Event Store) :=
  [.start, .begin 1, .begin 0, .panel 0 (.proceed 0 (.ok (.object [("type", .text "object")]))),
    .panel 0 (.proceed 0 (.error .closed)), .panel 0 (.proceed 0 (.error .closed)),
    .panel 1 (.crash 0 .closed), .read (.ok .null), .finish, .panel 0 .submit]

/-- The panel with a form is visible after the start, and not after the closing, though the answer to its
submission comes later and it is selected again. -/
theorem visible_until_closed :
    Console.make "/a" ["get", "post"] false default = .ok twoPanels ∧
      halfStart.countP Event.isStart ≤ 1 ∧
      let a := (fresh twoPanels (Store.memory [])).run halfStart
      a.start = .returned ∧ (∃ panel ∈ a.console.panels, panel.visible = true) ∧
        ∀ panel ∈ ((a.perform .close).run
          [.panel 0 (.answer (.ok .null)), .select "get"]).console.panels, panel.visible = false := by
  have made : Console.make "/a" ["get", "post"] false default = .ok twoPanels := by
    with_unfolding_all rfl
  have once : halfStart.countP Event.isStart ≤ 1 := by decide
  obtain ⟨-, -, -, -, -, shown, closed⟩ := visible_iff_rendered made (Store.memory []) once
  have plain : Schema.resolve (.object [("type", .text "object")]) =
      .ok (.object [("type", .text "object")]) :=
    Schema.resolve_single (by decide) (by simp) (by simp)
  obtain ⟨returned, phases⟩ : ((fresh twoPanels (Store.memory [])).run halfStart).start = .returned ∧
      ((fresh twoPanels (Store.memory [])).run halfStart).console.panels.map (·.phase) =
        [.submitting, .failed] := by
    simp [fresh, run, halfStart, twoPanels, ofPanels, Activity.perform, panelAt, put, setPanel,
      receiveResource, isLoaded, Work.isLoaded, Work.none, List.range_succ, selectFirst, visiblePanel?,
      showOnly, Panel.Event.isOwn, Panel.Activity.perform, Panel.startSubmit, Panel.Activity.setLoad,
      Panel.LoadStage.next, Panel.receive, Panel.isDocument, Panel.receiveSchema, plain, Panel.attach,
      Panel.isRendered, Panel.make, Panel.endLoad, Panel.markFailed, Panel.withdraw]
  refine ⟨made, once, returned, (shown returned).mpr ?_, closed _⟩
  have busy : Phase.submitting ∈ [Phase.submitting, .failed] := List.mem_cons_self
  rw [← phases] at busy
  obtain ⟨panel, mem, phase⟩ := List.mem_map.mp busy
  exact ⟨panel, mem, .inr phase⟩

end Activity

end VerbForms.Console
