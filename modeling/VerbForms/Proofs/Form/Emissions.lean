import VerbForms.Proofs.Form.Diary

/-!
# The order of emissions

The moments of a form follow rules: an emission that starts has to call the listeners for its trigger that are
there at this moment, it calls them one by one in order, and it has ended when none of them is left
(`Ruled`). Every diary follows the rules (`Diary.closes_emitWithin`). So an emission calls exactly the
listeners that were there when it started, whatever they do to the form and however emissions are nested
(`Live.emission_calls_listeners_present`).
-/

namespace VerbForms.Form

open Function (update)

variable {form : Live} {moments before after : List Moment} {moment : Moment} {emission : Nat}
  {listener : Listener} {trigger : String} {event : Event}

/-! ### Moments -/

theorem starts_append (before after : List Moment) : starts (before ++ after) = starts before + starts after :=
  List.countP_append

theorem starts_le_concat (moments : List Moment) (moment : Moment) :
    starts moments ≤ starts (moments ++ [moment]) := by
  rw [starts_append]
  exact Nat.le_add_right _ _

theorem callsOf_append (emission : Nat) (before after : List Moment) :
    callsOf emission (before ++ after) = callsOf emission before ++ callsOf emission after :=
  List.filterMap_append

theorem replay_concat (form : Live) (moments : List Moment) (moment : Moment) :
    form.replay (moments ++ [moment]) = (form.replay moments).after moment := by
  rw [Live.replay, Live.replay, List.foldl_append]
  rfl

/-- The listeners for a trigger after some moments of a form: those that were there, and those added since. -/
def Live.present (form : Live) (moments : List Moment) (trigger : String) : List Listener :=
  (form.listeners ++ moments.filterMap Moment.addition?).filter (·.trigger == trigger)

/-- The value after some moments of a form: the one that was stored last. -/
def Live.valueAfter (form : Live) (moments : List Moment) : Json :=
  (moments.filterMap Moment.value?).getLast?.getD form.value

/-- **What is added and stored is kept**, and nothing else is changed. -/
theorem replay_eq (form : Live) (moments : List Moment) : form.replay moments = { form with
    value := form.valueAfter moments
    listeners := form.listeners ++ moments.filterMap Moment.addition? } := by
  induction moments generalizing form with
  | nil => rw [List.filterMap_nil, List.append_nil]; rfl
  | cons moment moments ih =>
    refine (ih (form.after moment)).trans ?_
    cases moment with
    | added listener => rw [Live.after, Live.listen, List.append_assoc]; rfl
    | stored value =>
      have last : Live.valueAfter { form with value } moments =
          form.valueAfter (.stored value :: moments) := by
        have values : (Moment.stored value :: moments).filterMap Moment.value? =
            value :: moments.filterMap Moment.value? := rfl
        rw [Live.valueAfter, Live.valueAfter, values, List.getLast?_cons]
        rfl
      rw [Live.after, last]
      rfl
    | _ => rfl

theorem listenersFor_replay (form : Live) (moments : List Moment) (trigger : String) :
    (form.replay moments).listenersFor trigger = form.present moments trigger := by
  rw [replay_eq]
  rfl

theorem value_replay (form : Live) (moments : List Moment) :
    (form.replay moments).value = form.valueAfter moments := by
  rw [replay_eq]

/-- A moment in a list with one more moment at its end. -/
theorem concat_eq_append_cons {α : Type} {items before after : List α} {last item : α}
    (same : items ++ [last] = before ++ item :: after) :
    (before = items ∧ item = last ∧ after = []) ∨
      ∃ rest, items = before ++ item :: rest ∧ after = rest ++ [last] := by
  rcases List.eq_nil_or_concat after with rfl | ⟨rest, d, rfl⟩
  · obtain ⟨rfl, one⟩ := List.append_inj' same rfl
    exact .inl ⟨rfl, (List.cons.inj one).1.symm, rfl⟩
  · rw [List.concat_eq_append, ← List.cons_append, ← List.append_assoc] at same
    obtain ⟨front, one⟩ := List.append_inj' same rfl
    exact .inr ⟨rest, front, by rw [List.concat_eq_append, (List.cons.inj one).1]⟩

/-! ### Rules -/

/-- The event shows the value that the form has. -/
def Event.Shows (value : Json) : Event → Prop
  | .recorded _ => True
  | .observed shown => shown = value
  | .saveAsked _ shown => shown = value

/-- The emissions that go on, with the listeners that they still have to call. -/
abbrev Pending := Nat → Option (List Listener)

/-- The moments of a form follow the rules of emissions. -/
inductive Ruled (form : Live) : List Moment → Pending → Prop where
  | fresh : Ruled form [] fun _ ↦ none
  /-- An emission that starts has to call the listeners for its trigger. -/
  | started {moments : List Moment} {pending : Pending} {trigger : String} : Ruled form moments pending →
      Ruled form (moments ++ [.started trigger])
        (update pending (starts moments) (some ((form.replay moments).listenersFor trigger)))
  /-- An emission calls the first listener that is left. -/
  | called {moments : List Moment} {pending : Pending} {emission : Nat} {listener : Listener}
      {rest : List Listener} : Ruled form moments pending → pending emission = some (listener :: rest) →
      Ruled form (moments ++ [.called emission listener]) (update pending emission (some rest))
  /-- An emission ends when no listener is left. -/
  | ended {moments : List Moment} {pending : Pending} {emission : Nat} : Ruled form moments pending →
      pending emission = some [] → Ruled form (moments ++ [.ended emission]) (update pending emission none)
  | added {moments : List Moment} {pending : Pending} {listener : Listener} : Ruled form moments pending →
      Ruled form (moments ++ [.added listener]) pending
  | stored {moments : List Moment} {pending : Pending} {value : Json} : Ruled form moments pending →
      Ruled form (moments ++ [.stored value]) pending
  | told {moments : List Moment} {pending : Pending} {event : Event} : Ruled form moments pending →
      event.Shows (form.replay moments).value → Ruled form (moments ++ [.told event]) pending

namespace Ruled

variable {pending : Pending}

/-- An emission that has not started has nothing to call. -/
theorem pending_eq_none (h : Ruled form moments pending) (unborn : starts moments ≤ emission) :
    pending emission = none := by
  induction h generalizing emission with
  | fresh => rfl
  | @started moments pending trigger _ ih =>
    rw [starts_append] at unborn
    rw [Function.update_of_ne (Nat.ne_of_gt unborn)]
    exact ih (Nat.le_of_succ_le unborn)
  | @called moments pending own listener rest _ left ih =>
    have none := ih (Nat.le_trans (starts_le_concat _ _) unborn)
    have other : emission ≠ own := by
      rintro rfl
      rw [none] at left
      cases left
    rwa [Function.update_of_ne other]
  | ended _ _ ih =>
    rw [Function.update_apply]
    split
    · rfl
    · exact ih (Nat.le_trans (starts_le_concat _ _) unborn)
  | added _ ih | stored _ ih | told _ _ ih => exact ih (Nat.le_trans (starts_le_concat _ _) unborn)

theorem lt_starts (h : Ruled form moments pending) {left : List Listener}
    (going : pending emission = some left) : emission < starts moments := by
  by_contra unborn
  rw [h.pending_eq_none (Nat.le_of_not_lt unborn)] at going
  cases going

/-- A listener is called by an emission that has started. -/
theorem called_lt (h : Ruled form moments pending)
    (split : moments = before ++ .called emission listener :: after) : emission < starts before := by
  induction h generalizing after with
  | fresh => exact absurd split (by simp)
  | called ruled left ih =>
    rcases concat_eq_append_cons split with ⟨rfl, same, -⟩ | ⟨rest, earlier, -⟩
    · cases same
      exact ruled.lt_starts left
    · exact ih earlier
  | started _ ih | ended _ _ ih | added _ ih | stored _ ih | told _ _ ih =>
    rcases concat_eq_append_cons split with ⟨-, ⟨⟩, -⟩ | ⟨rest, earlier, -⟩
    exact ih earlier

/-- What is told shows the value at that moment. -/
theorem shows (h : Ruled form moments pending) (split : moments = before ++ .told event :: after) :
    event.Shows (form.replay before).value := by
  induction h generalizing after with
  | fresh => exact absurd split (by simp)
  | told ruled shows ih =>
    rcases concat_eq_append_cons split with ⟨rfl, same, -⟩ | ⟨rest, earlier, -⟩
    · cases same
      exact shows
    · exact ih earlier
  | started _ ih | called _ _ ih | ended _ _ ih | added _ ih | stored _ ih =>
    rcases concat_eq_append_cons split with ⟨-, ⟨⟩, -⟩ | ⟨rest, earlier, -⟩
    exact ih earlier

/-- Nobody has given up. -/
theorem not_stopped (h : Ruled form moments pending) {reason : Interruption} :
    moments ≠ before ++ .stopped reason :: after := by
  intro split
  induction h generalizing after with
  | fresh => exact absurd split (by simp)
  | started _ ih | called _ _ ih | ended _ _ ih | added _ ih | stored _ ih | told _ _ ih =>
    rcases concat_eq_append_cons split with ⟨-, ⟨⟩, -⟩ | ⟨rest, earlier, -⟩
    exact ih earlier

/-- An emission that has ended has nothing left to call. -/
theorem pending_of_ended (h : Ruled form moments pending) (mem : .ended emission ∈ moments) :
    emission < starts moments ∧ pending emission = none := by
  induction h with
  | fresh => exact absurd mem List.not_mem_nil
  | started ruled ih =>
    obtain ⟨born, none⟩ := ih (by simpa using mem)
    refine ⟨Nat.lt_of_lt_of_le born (starts_le_concat _ _), ?_⟩
    rwa [Function.update_of_ne (Nat.ne_of_lt born)]
  | @called _ pending own _ _ ruled left ih =>
    obtain ⟨born, none⟩ := ih (by simpa using mem)
    refine ⟨Nat.lt_of_lt_of_le born (starts_le_concat _ _), ?_⟩
    have other : emission ≠ own := by
      rintro rfl
      rw [none] at left
      cases left
    rwa [Function.update_of_ne other]
  | @ended _ pending own ruled left ih =>
    rw [Function.update_apply]
    split
    · next here =>
      subst here
      exact ⟨Nat.lt_of_lt_of_le (ruled.lt_starts left) (starts_le_concat _ _), rfl⟩
    · next other =>
      obtain ⟨born, none⟩ := ih (by simpa [other] using mem)
      exact ⟨Nat.lt_of_lt_of_le born (starts_le_concat _ _), none⟩
  | added _ ih | stored _ ih | told _ _ ih =>
    obtain ⟨born, none⟩ := ih (by simpa using mem)
    exact ⟨Nat.lt_of_lt_of_le born (starts_le_concat _ _), none⟩

/-- An emission that has not started has called nobody. -/
theorem callsOf_eq_nil (h : Ruled form moments pending) (unborn : starts moments ≤ emission) :
    callsOf emission moments = [] := by
  induction h with
  | fresh => rfl
  | called ruled left ih =>
    have earlier := Nat.le_trans (starts_le_concat _ _) unborn
    have other := Nat.ne_of_lt (Nat.lt_of_lt_of_le (ruled.lt_starts left) earlier)
    rw [callsOf_append, ih earlier, List.nil_append]
    exact List.filterMap_cons_none (if_neg other)
  | started _ ih | ended _ _ ih | added _ ih | stored _ ih | told _ _ ih =>
    rw [callsOf_append, ih (Nat.le_trans (starts_le_concat _ _) unborn)]
    rfl

theorem starts_lt_of_split (split : moments = before ++ .started trigger :: after) :
    starts before < starts moments := by
  rw [split, starts_append]
  exact Nat.lt_add_of_pos_right (List.countP_pos_iff.mpr ⟨_, List.mem_cons_self, rfl⟩)

/-- **An emission calls the listeners that were there when it started.** Those that it has called and those
that are left to call are the listeners for its trigger at its start, in order. -/
theorem callsOf_append_pending (h : Ruled form moments pending)
    (split : moments = before ++ .started trigger :: after) :
    callsOf (starts before) moments ++ (pending (starts before)).getD [] =
      (form.replay before).listenersFor trigger := by
  induction h generalizing after with
  | fresh => exact absurd split (by simp)
  | started ruled ih =>
    rw [callsOf_append]
    rcases concat_eq_append_cons split with ⟨rfl, same, -⟩ | ⟨rest, earlier, -⟩
    · cases same
      rw [ruled.callsOf_eq_nil (Nat.le_refl _), Function.update_self]
      rfl
    · have other := Nat.ne_of_lt (starts_lt_of_split earlier)
      rw [Function.update_of_ne other, ← ih earlier]
      exact congrArg (· ++ _) (List.append_nil _)
  | @called _ pending own listener left _ going ih =>
    rcases concat_eq_append_cons split with ⟨-, ⟨⟩, -⟩ | ⟨rest, earlier, -⟩
    rw [callsOf_append, ← ih earlier]
    by_cases here : own = starts before
    · subst here
      have next : callsOf (starts before) [.called (starts before) listener] = [listener] :=
        List.filterMap_cons_some (if_pos rfl)
      rw [Function.update_self, going, next, List.append_assoc]
      rfl
    · have next : callsOf (starts before) [.called own listener] = [] :=
        List.filterMap_cons_none (if_neg here)
      rw [Function.update_of_ne (Ne.symm here), next, List.append_nil]
  | @ended _ pending own _ done ih =>
    rcases concat_eq_append_cons split with ⟨-, ⟨⟩, -⟩ | ⟨rest, earlier, -⟩
    rw [callsOf_append, ← ih earlier, Function.update_apply]
    split
    · next here =>
      rw [here, done]
      exact congrArg (· ++ _) (List.append_nil _)
    · exact congrArg (· ++ _) (List.append_nil _)
  | added _ ih | stored _ ih | told _ _ ih =>
    rcases concat_eq_append_cons split with ⟨-, ⟨⟩, -⟩ | ⟨rest, earlier, -⟩
    rw [callsOf_append, ← ih earlier]
    exact congrArg (· ++ _) (List.append_nil _)

end Ruled

/-! ### Diaries follow the rules -/

namespace Diary

variable {pending next : Pending} {diary : Diary} {emit : String → Diary → Diary}

/-- A form after some moments, while nobody has given up. -/
def ongoing (form : Live) (moments : List Moment) : Diary := ⟨form.replay moments, moments, none⟩

theorem note_ongoing (form : Live) (moments : List Moment) (moment : Moment) :
    (ongoing form moments).note moment = ongoing form (moments ++ [moment]) := by
  rw [ongoing, ongoing, note, replay_concat]

/-- What comes of a form after its first moments: all moments follow the rules so far, and it has been given
up at most at the last one. -/
inductive Comes (form : Live) (first : List Moment) (pending : Pending) : Diary → Prop where
  | going {moments : List Moment} : first <+: moments → Ruled form moments pending →
      Comes form first pending (ongoing form moments)
  | stopped {moments : List Moment} {left : Pending} (reason : Interruption) : first <+: moments →
      Ruled form moments left → Comes form first pending ((ongoing form moments).stop reason)

theorem Comes.earlier {first earlier : List Moment} (h : Comes form first pending diary)
    (begins : earlier <+: first) : Comes form earlier pending diary := by
  cases h with
  | going front ruled => exact .going (begins.trans front) ruled
  | stopped reason front ruled => exact .stopped reason (begins.trans front) ruled

theorem Comes.andThen {first : List Moment} (h : Comes form first pending diary) {step : Diary → Diary}
    (follows : ∀ moments, Ruled form moments pending → Comes form moments next (step (ongoing form moments))) :
    Comes form first next (diary.andThen step) := by
  cases h with
  | going front ruled => exact (follows _ ruled).earlier front
  | stopped reason front ruled => exact .stopped reason front ruled

theorem comes_note (ruled : Ruled form (moments ++ [moment]) pending) :
    Comes form moments pending ((ongoing form moments).note moment) := by
  rw [note_ongoing]
  exact .going (List.prefix_append _ _) ruled

/-- What an emission inside another one comes to: it leaves nothing to be called. -/
def Closes (emit : String → Diary → Diary) : Prop :=
  ∀ form trigger moments pending, Ruled form moments pending →
    Comes form moments pending (emit trigger (ongoing form moments))

theorem Closes.perform (nested : Closes emit) (ruled : Ruled form moments pending) (action : Action) :
    Comes form moments pending (perform emit action (ongoing form moments)) := by
  cases action with
  | emit trigger => exact nested form trigger moments pending ruled
  | raise reason => exact .stopped _ List.prefix_rfl ruled
  | record name => exact comes_note (ruled.told trivial)
  | observe | save trigger => exact comes_note (ruled.told rfl)
  | listen trigger actions => exact comes_note ruled.added
  | set value => exact comes_note ruled.stored

/-- A call brings an emission one listener further. -/
theorem Closes.call (nested : Closes emit) (ruled : Ruled form moments pending) {rest : List Listener}
    (left : pending emission = some (listener :: rest)) :
    Comes form moments (update pending emission (some rest))
      (call emit emission listener (ongoing form moments)) := by
  have actions (actions : List Action) {pending : Pending} {diary : Diary}
      (h : Comes form moments pending diary) : Comes form moments pending
        (actions.foldl (fun diary action ↦ diary.andThen (Diary.perform emit action)) diary) := by
    induction actions generalizing diary with
    | nil => exact h
    | cons action actions ih => exact ih (h.andThen fun _ ruled ↦ nested.perform ruled action)
  exact actions _ (comes_note (ruled.called left))

/-- An emission calls all the listeners that are left. -/
theorem Closes.callAll (nested : Closes emit) {first : List Moment} {listeners : List Listener}
    (h : Comes form first pending diary) (left : pending emission = some listeners) :
    Comes form first (update pending emission (some [])) (callAll emit emission listeners diary) := by
  induction listeners generalizing pending diary with
  | nil =>
    rw [← left, Function.update_eq_self]
    exact h
  | cons listener rest ih =>
    have called := h.andThen fun _ ruled ↦ nested.call ruled left
    have rest := ih called (Function.update_self _ _ _)
    rwa [Function.update_idem] at rest

/-- An emission starts, calls its listeners and ends. -/
theorem Closes.emitWithin {depth : Nat} (nested : Closes (emitWithin depth)) (trigger : String)
    (ruled : Ruled form moments pending) :
    Comes form (moments ++ [.started trigger]) pending
      (Diary.emitWithin (depth + 1) trigger (ongoing form moments)) := by
  have unborn := ruled.pending_eq_none (Nat.le_refl _)
  have started : Ruled form (moments ++ [.started trigger]) _ := ruled.started
  have called := nested.callAll (.going List.prefix_rfl started) (Function.update_self (starts moments) _ pending)
  rw [Function.update_idem] at called
  rw [Diary.emitWithin, note_ongoing]
  refine called.andThen fun later ruled ↦ comes_note ?_
  have ended := ruled.ended (Function.update_self _ _ _)
  rwa [Function.update_idem, ← unborn, Function.update_eq_self] at ended

/-- **Every emission follows the rules.** -/
theorem closes_emitWithin (depth : Nat) : Closes (emitWithin depth) := by
  induction depth with
  | zero => exact fun form trigger moments pending ruled ↦ .stopped _ List.prefix_rfl ruled
  | succ depth nested =>
    exact fun form trigger moments pending ruled ↦
      (nested.emitWithin trigger ruled).earlier (List.prefix_append _ _)

end Diary

/-! ### Good order -/

/-- A diary in good order, of a form as it was before. -/
structure Diary.Orderly (form : Live) (diary : Diary) : Prop where
  /-- What was added and stored is kept, and nothing else is changed. -/
  kept : diary.form = { form with
    value := form.valueAfter diary.moments
    listeners := form.listeners ++ diary.moments.filterMap Moment.addition? }
  /-- Listeners are called by emissions that have started. -/
  known : ∀ before emission listener after, diary.moments = before ++ .called emission listener :: after →
    emission < starts before
  /-- An emission calls the first of the listeners that are present when it starts, each once and in order, and
  all of them if it ends. -/
  calls : ∀ before trigger after, diary.moments = before ++ .started trigger :: after →
    callsOf (starts before) diary.moments <+: form.present before trigger ∧
      (diary.interruption = none ∨ .ended (starts before) ∈ diary.moments →
        callsOf (starts before) diary.moments = form.present before trigger)
  /-- What is told shows the value that was stored last. -/
  shown : ∀ before event after, diary.moments = before ++ .told event :: after →
    event.Shows (form.valueAfter before)
  /-- Nothing happens after a listener has raised, and its error is the error of the emission. -/
  stops : ∀ before reason after, diary.moments = before ++ .stopped reason :: after →
    after = [] ∧ diary.interruption = some reason
  /-- There is no other error. -/
  raised : ∀ reason, diary.interruption = some reason → .stopped reason ∈ diary.moments

/-- Moments that follow the rules and leave nothing to be called are in good order. -/
theorem Ruled.orderly (ruled : Ruled form moments fun _ ↦ none) : (Diary.ongoing form moments).Orderly form where
  kept := replay_eq form moments
  known _ _ _ _ := ruled.called_lt
  calls before trigger after split := by
    have calls := ruled.callsOf_append_pending split
    rw [listenersFor_replay, Option.getD_none, List.append_nil] at calls
    exact ⟨calls ▸ List.prefix_rfl, fun _ ↦ calls⟩
  shown before event after split := by
    rw [← value_replay]
    exact ruled.shows split
  stops _ _ _ split := absurd split ruled.not_stopped
  raised := nofun

/-- Moments that follow the rules are in good order when the emissions are given up after them. -/
theorem Ruled.orderly_stop {pending : Pending} (ruled : Ruled form moments pending) (reason : Interruption) :
    ((Diary.ongoing form moments).stop reason).Orderly form where
  kept := (replay_concat form moments (.stopped reason)).symm.trans (replay_eq form _)
  known before emission listener after split := by
    obtain ⟨-, ⟨⟩, -⟩ | ⟨rest, earlier, -⟩ := concat_eq_append_cons split
    exact ruled.called_lt earlier
  calls before trigger after split := by
    obtain ⟨-, ⟨⟩, -⟩ | ⟨rest, earlier, -⟩ := concat_eq_append_cons split
    have calls := ruled.callsOf_append_pending earlier
    have same : callsOf (starts before) (moments ++ [.stopped reason]) = callsOf (starts before) moments :=
      (callsOf_append _ _ _).trans (List.append_nil _)
    rw [listenersFor_replay, ← same] at calls
    refine ⟨⟨_, calls⟩, ?_⟩
    rintro (none | ended)
    · cases none
    · -- Emissions that have ended before have called all their listeners.
      have ended : .ended (starts before) ∈ moments := by
        simpa [Diary.stop, Diary.note, Diary.ongoing] using ended
      rwa [(ruled.pending_of_ended ended).2, Option.getD_none, List.append_nil] at calls
  shown before event after split := by
    obtain ⟨-, ⟨⟩, -⟩ | ⟨rest, earlier, -⟩ := concat_eq_append_cons split
    rw [← value_replay]
    exact ruled.shows earlier
  stops before other after split := by
    obtain ⟨-, same, last⟩ | ⟨rest, earlier, -⟩ := concat_eq_append_cons split
    · cases same
      exact ⟨last, rfl⟩
    · exact absurd earlier ruled.not_stopped
  raised other same := by
    cases same
    exact List.mem_append_right _ List.mem_cons_self

/-- An emission that leaves nothing to be called is in good order. -/
theorem Diary.Comes.orderly {first : List Moment} {diary : Diary} (h : Comes form first (fun _ ↦ none) diary) :
    diary.Orderly form := by
  cases h with
  | going _ ruled => exact ruled.orderly
  | stopped reason _ ruled => exact ruled.orderly_stop reason

theorem Diary.Comes.begins {first : List Moment} {pending : Pending} {diary : Diary}
    (h : Comes form first pending diary) : first <+: diary.moments := by
  cases h with
  | going front _ => exact front
  | stopped reason front _ => exact front.trans (List.prefix_append _ _)

/-- An emission changes the value and the listeners of its form, and nothing else of it. -/
theorem Live.exists_form_emit (form : Live) (trigger : String) :
    ∃ value listeners, (form.emit trigger).form = { form with value, listeners } := by
  have comes := (Diary.closes_emitWithin (mostNested - 1)).emitWithin trigger (.fresh : Ruled form [] fun _ ↦ none)
  rw [Diary.emit_eq]
  exact ⟨_, _, comes.orderly.kept⟩

theorem Live.exists_form_setValue (form : Live) (value : Json) (next : Option String) :
    ∃ value' listeners, (form.setValue value next).form = { form with value := value', listeners } := by
  cases next with
  | none => exact ⟨value, form.listeners, rfl⟩
  | some trigger => exact Live.exists_form_emit { form with value } trigger

end VerbForms.Form
