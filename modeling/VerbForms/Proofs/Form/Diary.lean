import VerbForms.Form.Live
import Mathlib.Logic.Function.Basic

/-!
# Diaries of forms

A diary notes all that happens to a form while its listeners are called: which emissions start, whom they
call, what is added and stored. The diary of an emission has the same result as the emission itself
(`Diary.mirrors_emitWithin`).
-/

namespace VerbForms.Form

/-- A moment in the life of a form. Emissions are numbered in the order in which they start. -/
inductive Moment where
  | started (trigger : String)
  /-- An emission calls a listener. -/
  | called (emission : Nat) (listener : Listener)
  | added (listener : Listener)
  | stored (value : Json)
  | told (event : Event)
  /-- A listener raises, or an emission is nested too deeply. -/
  | stopped (reason : Interruption)
  /-- An emission has called all its listeners. -/
  | ended (emission : Nat)

/-- The form after a moment. -/
def Live.after (form : Live) : Moment → Live
  | .added listener => form.listen listener
  | .stored value => { form with value }
  | _ => form

/-- The form after some moments. -/
def Live.replay (form : Live) (moments : List Moment) : Live := moments.foldl Live.after form

namespace Moment

/-- What can be told from outside. -/
def event? : Moment → Option Event
  | .told event => some event
  | _ => none

/-- The listener that is added. -/
def addition? : Moment → Option Listener
  | .added listener => some listener
  | _ => none

/-- The value that is stored. -/
def value? : Moment → Option Json
  | .stored value => some value
  | _ => none

/-- The listener that an emission calls. -/
def callee? (emission : Nat) : Moment → Option Listener
  | .called other listener => if other = emission then some listener else none
  | _ => none

/-- Whether an emission starts. -/
def isStart : Moment → Bool
  | .started _ => true
  | _ => false

end Moment

/-- How many emissions have started. -/
def starts (moments : List Moment) : Nat := moments.countP Moment.isStart

/-- The listeners that an emission has called, in order. -/
def callsOf (emission : Nat) (moments : List Moment) : List Listener :=
  moments.filterMap (Moment.callee? emission)

/-- A form with the moments that it has had. -/
structure Diary where
  form : Live
  moments : List Moment
  interruption : Option Interruption

namespace Diary

/-- A form that nothing has happened to. -/
def fresh (form : Live) : Diary := ⟨form, [], none⟩

/-- One more moment. -/
def note (diary : Diary) (moment : Moment) : Diary :=
  { diary with form := diary.form.after moment, moments := diary.moments ++ [moment] }

/-- All emissions that have not ended are given up. -/
def stop (diary : Diary) (reason : Interruption) : Diary :=
  { diary.note (.stopped reason) with interruption := some reason }

/-- Go on unless the emissions are given up. -/
def andThen (diary : Diary) (next : Diary → Diary) : Diary :=
  match diary.interruption with
  | some _ => diary
  | none => next diary

/-- Perform one action; `emit` performs an emission inside this one. -/
def perform (emit : String → Diary → Diary) (action : Action) (diary : Diary) : Diary :=
  match action with
  | .record name => diary.note (.told (.recorded name))
  | .observe => diary.note (.told (.observed diary.form.value))
  | .listen trigger actions => diary.note (.added ⟨trigger, actions⟩)
  | .emit trigger => emit trigger diary
  | .set value => diary.note (.stored value)
  | .raise reason => diary.stop (.raised reason)
  | .save trigger => diary.note (.told (.saveAsked trigger diary.form.value))

/-- Call one listener for an emission. -/
def call (emit : String → Diary → Diary) (emission : Nat) (listener : Listener) (diary : Diary) : Diary :=
  listener.actions.foldl (fun diary action ↦ diary.andThen (perform emit action))
    (diary.note (.called emission listener))

/-- Call some listeners for an emission, one after the other. -/
def callAll (emit : String → Diary → Diary) (emission : Nat) (listeners : List Listener) (diary : Diary) :
    Diary :=
  listeners.foldl (fun diary listener ↦ diary.andThen (call emit emission listener)) diary

/-- An emission in which others may be nested to a depth. -/
def emitWithin : Nat → String → Diary → Diary
  | 0, _, diary => diary.stop .tooDeep
  | depth + 1, trigger, diary =>
    let emission := starts diary.moments
    (callAll (emitWithin depth) emission (diary.form.listenersFor trigger)
      (diary.note (.started trigger))).andThen (·.note (.ended emission))

/-- The diary of an emission. -/
def ofEmission (form : Live) (trigger : String) : Diary := emitWithin Live.mostNested trigger (.fresh form)

/-- The diary of a value that is set, and of the emission of a trigger if there is one. -/
def ofValue (form : Live) (value : Json) (trigger : Option String) : Diary :=
  let changed := (fresh form).note (.stored value)
  match trigger with
  | some trigger => emitWithin Live.mostNested trigger changed
  | none => changed

/-- What has come of a form by a diary. -/
def toEmission (diary : Diary) : Emission :=
  ⟨diary.form, diary.moments.filterMap Moment.event?, diary.interruption⟩

/-! ### The result of a diary -/

variable {before diary after : Diary} {run : Emission} {emission depth : Nat}
  {emit : String → Diary → Diary} {emit' : String → Live → Emission}

/-- A diary has gone on as an emission does. -/
structure Mirrors (before after : Diary) (run : Emission) : Prop where
  form : after.form = run.form
  events : after.moments.filterMap Moment.event? = before.moments.filterMap Moment.event? ++ run.events
  interruption : after.interruption = run.interruption

theorem mirrors_note (going : diary.interruption = none) (moment : Moment) :
    Mirrors diary (diary.note moment) ⟨diary.form.after moment, moment.event?.toList, none⟩ := by
  refine ⟨rfl, ?_, going⟩
  rw [note, List.filterMap_append]
  cases moment <;> rfl

theorem Mirrors.andThen (h : Mirrors before diary run) {next : Live → Emission} {next' : Diary → Diary}
    (mirrors : diary.interruption = none → Mirrors diary (next' diary) (next diary.form)) :
    Mirrors before (diary.andThen next') (run.andThen next) := by
  cases stopped : run.interruption with
  | some reason =>
    rw [Diary.andThen, Emission.andThen, h.interruption, stopped]
    exact h
  | none =>
    have going : diary.interruption = none := h.interruption.trans stopped
    have more := mirrors going
    rw [Diary.andThen, Emission.andThen, going, stopped]
    dsimp only
    rw [h.form] at more
    refine ⟨more.form, ?_, more.interruption⟩
    rw [more.events, h.events, List.append_assoc]

theorem Mirrors.foldl {α : Type} {items : List α} {step : α → Live → Emission} {step' : α → Diary → Diary}
    (mirrors : ∀ item ∈ items, ∀ diary : Diary, diary.interruption = none →
      Mirrors diary (step' item diary) (step item diary.form)) (h : Mirrors before diary run) :
    Mirrors before (items.foldl (fun diary item ↦ diary.andThen (step' item)) diary)
      (items.foldl (fun run item ↦ run.andThen (step item)) run) := by
  induction items generalizing diary run with
  | nil => exact h
  | cons item items ih =>
    obtain ⟨first, rest⟩ := List.forall_mem_cons.mp mirrors
    exact ih rest (h.andThen (first diary))

/-- What an emission inside another one does. -/
def MirrorsEmit (emit : String → Diary → Diary) (emit' : String → Live → Emission) : Prop :=
  ∀ trigger diary, diary.interruption = none → Mirrors diary (emit trigger diary) (emit' trigger diary.form)

theorem MirrorsEmit.perform (nested : MirrorsEmit emit emit') (going : diary.interruption = none)
    (action : Action) : Mirrors diary (perform emit action diary) (Live.perform emit' action diary.form) := by
  cases action with
  | emit trigger => exact nested trigger diary going
  | raise reason => exact ⟨rfl, by rw [Diary.perform, stop, note, List.filterMap_append]; rfl, rfl⟩
  | _ => exact mirrors_note going _

/-- A moment that tells nothing and does not change the form belongs to what follows. -/
theorem mirrors_idle (going : diary.interruption = none) {moment : Moment}
    (silent : moment.event? = none) (same : diary.form.after moment = diary.form) :
    Mirrors diary (diary.note moment) (.idle diary.form) := by
  have noted := mirrors_note going moment
  rwa [silent, same] at noted

theorem MirrorsEmit.call (nested : MirrorsEmit emit emit') (going : diary.interruption = none) (emission : Nat)
    (listener : Listener) :
    Mirrors diary (call emit emission listener diary) (Live.call emit' listener diary.form) :=
  (mirrors_idle going rfl rfl).foldl fun action _ _ going ↦ nested.perform going action

theorem andThen_idle (run : Emission) : run.andThen .idle = run := by
  rw [Emission.andThen]
  split
  · rfl
  · next going =>
    obtain ⟨form, events, interruption⟩ := run
    obtain rfl : interruption = none := going
    exact congrArg (Emission.mk form · none) (List.append_nil events)

theorem Mirrors.andThen_note (h : Mirrors before diary run) {moment : Moment} (silent : moment.event? = none)
    (same : ∀ form : Live, form.after moment = form) : Mirrors before (diary.andThen (·.note moment)) run := by
  have noted : Mirrors before (diary.andThen (·.note moment)) (run.andThen .idle) :=
    h.andThen fun going ↦ mirrors_idle going silent (same _)
  rwa [andThen_idle] at noted

/-- **A diary has the same result as the emission.** -/
theorem mirrors_emitWithin (depth : Nat) : MirrorsEmit (emitWithin depth) (Live.emitWithin depth) := by
  induction depth with
  | zero =>
    intro trigger diary _
    exact ⟨rfl, by rw [emitWithin, stop, note, List.filterMap_append]; rfl, rfl⟩
  | succ depth ih =>
    intro trigger diary going
    have called : Mirrors diary
        (callAll (emitWithin depth) (starts diary.moments) (diary.form.listenersFor trigger)
          (diary.note (.started trigger)))
        (Live.callAll (Live.emitWithin depth) (diary.form.listenersFor trigger) diary.form) :=
      (mirrors_idle going rfl rfl).foldl fun listener _ _ going ↦ ih.call going _ listener
    exact called.andThen_note rfl fun _ ↦ rfl

theorem Mirrors.eq {form : Live} (h : Mirrors (fresh form) diary run) : run = diary.toEmission := by
  obtain ⟨form_eq, events, interruption⟩ := h
  rw [toEmission, form_eq, events, interruption]
  rfl

theorem emit_eq (form : Live) (trigger : String) : form.emit trigger = (ofEmission form trigger).toEmission :=
  (mirrors_emitWithin Live.mostNested trigger (fresh form) rfl).eq

theorem setValue_eq (form : Live) (value : Json) (trigger : Option String) :
    form.setValue value trigger = (ofValue form value trigger).toEmission := by
  cases trigger with
  | none => rfl
  | some trigger =>
    have emitted := mirrors_emitWithin Live.mostNested trigger ((fresh form).note (.stored value)) rfl
    have all : Mirrors (fresh form) (ofValue form value (some trigger)) (form.setValue value (some trigger)) :=
      ⟨emitted.form, emitted.events, emitted.interruption⟩
    exact all.eq

end Diary

end VerbForms.Form
