import VerbForms.Proofs.Panel.AtRest

/-!
# The history of submissions

The response and the messages of a panel tell how its submissions have ended. A run leaves notes
(`Activity.history`): of each submission whether the panel was mounted when it ended, what came of its
request and its result. Only the last success while the panel was mounted can be seen in the response,
and each failed exchange while it was mounted has added its message.
-/

namespace VerbForms

namespace Panel

variable {σ : Type} {panel : Panel}

/-- How a submission ended. -/
structure Ending where
  mounted : Bool
  answer : Except Remote.RequestError Json
  result : Except Remote.RequestError SubmitResult

/-- The value that is to be seen after the submission, if it succeeded in time. -/
def Ending.response? (ending : Ending) : Option Json :=
  if ending.mounted then ending.answer.toOption else none

/-- The messages that the user gets of the submission. -/
def Ending.messages (ending : Ending) : List String :=
  match ending.mounted, ending.answer with
  | true, .error (.exchange error) => [error.message]
  | _, _ => []

/-- The end of a submission of the panel. -/
def ending (panel : Panel) (answer : Except Remote.RequestError Json) : Ending where
  mounted := panel.phase ≠ .unmounted
  answer := answer
  result := (panel.endSubmit answer).result

/-- What there is to tell of an event. -/
inductive Note where
  /-- A submission has ended. -/
  | ended (ending : Ending)
  /-- Others have added messages. -/
  | told (messages : List String)

/-- The value that is to be seen after the event. -/
def Note.response? : Note → Option Json
  | .ended ending => ending.response?
  | .told _ => none

/-- The messages that the user gets of the event. -/
def Note.messages : Note → List String
  | .ended ending => ending.messages
  | .told messages => messages

/-! ### Ends of submissions -/

theorem response_endSubmit (panel : Panel) (answer : Except Remote.RequestError Json) :
    (panel.endSubmit answer).panel.response =
      (panel.ending answer).response?.elim panel.response ResponseView.ofValue := by
  have freed : panel.freed.response = panel.response := by
    rw [Panel.freed]
    split <;> rfl
  cases answer with
  | error error => cases error <;> simp [endSubmit, ending, Ending.response?, freed, Except.toOption]
  | ok response =>
    by_cases gone : panel.phase = .unmounted
    · simp [endSubmit, ending, Ending.response?, gone]
    · simp [endSubmit, ending, Ending.response?, gone, Except.toOption]

theorem alert_endSubmit (panel : Panel) (answer : Except Remote.RequestError Json) :
    (panel.endSubmit answer).alert.toList = (panel.ending answer).messages := by
  by_cases gone : panel.phase = .unmounted
  · cases answer with
    | error error => cases error <;> simp [endSubmit, ending, Ending.messages, gone]
    | ok response => simp [endSubmit, ending, Ending.messages, gone]
  · cases answer with
    | error error => cases error <;> simp [endSubmit, ending, Ending.messages, gone]
    | ok response => simp [endSubmit, ending, Ending.messages, gone]

/-- The result of a failed submission has the message that the user gets. -/
theorem exists_failure_of_mem_messages {answer : Except Remote.RequestError Json} {message : String}
    (mem : message ∈ (panel.ending answer).messages) :
    ∃ failure, (panel.ending answer).result = .ok ⟨.failed, .null, some failure⟩ ∧
      failure.error.message = message := by
  unfold Ending.messages at mem
  split at mem
  · next error _ same =>
    obtain rfl : answer = .error (.exchange error) := same
    exact ⟨⟨panel.verb, error⟩, rfl, (List.mem_singleton.mp mem).symm⟩
  · cases mem

namespace Activity

theorem alerts_keep (a : Activity σ) (saved : Option (Panel × σ)) :
    (a.keep saved).alerts = a.alerts := by
  cases saved <;> rfl

theorem alerts_setLoad (a : Activity σ) (load : Nat) (after : Panel) (next : Option LoadStage) :
    (a.setLoad load after next).alerts = a.alerts := by
  cases next <;> rfl

/-! ### Runs -/

variable {a b : Activity σ} {event : Event σ}

/-- What there is to tell of an event where it happens. -/
def note (a : Activity σ) : Event σ → Option Note
  | .answer answer => if a.sending = 0 then none else some (.ended (a.panel.ending answer))
  | .elsewhere _ messages => some (.told messages)
  | _ => none

/-- There is nothing to tell of what cannot happen. -/
theorem note_of_disabled (disabled : ¬ a.Enabled event) : a.note event = none := by
  cases event with
  | answer answer => exact if_pos (not_not.mp disabled)
  | elsewhere change messages => exact absurd trivial disabled
  | _ => rfl

variable [EntryStore σ]

/-- The notes of a run, in the order of its events. -/
def history (a : Activity σ) : List (Event σ) → List Note
  | [] => []
  | event :: events => (a.note event).toList ++ (a.perform event).history events

/-- An event shows what is to be seen after it, or leaves the response as it is. -/
theorem Step.response (step : Step a event b) :
    b.panel.response = ((a.note event).bind Note.response?).elim a.panel.response ResponseView.ofValue := by
  cases step with
  | idle disabled =>
    rw [note_of_disabled disabled]
    rfl
  | @proceed load stage found answer =>
    rw [panel_setLoad]
    exact (ledOn_next stage a.store answer a.panel).response
  | crash there error => exact (a.panel.ledOn_endLoad error).response
  | answer underWay answer =>
    rw [note, if_neg underWay]
    exact a.panel.response_endSubmit answer
  | setValue value trigger =>
    obtain ⟨state, same⟩ := a.panel_keep (·.setValue value trigger)
    exact (congrArg Panel.response same :)
  | emit trigger =>
    obtain ⟨state, same⟩ := a.panel_keep (·.emit trigger)
    exact (congrArg Panel.response same :)
  | notify saves =>
    obtain ⟨state, same⟩ := a.panel.saveForm_eq a.store
    exact (congrArg Panel.response same :)
  | report message => exact (a.panel.ledOn_withdraw (by decide) _).response
  | _ => rfl

/-- An event adds the messages that the user gets of it. -/
theorem Step.alerts (step : Step a event b) :
    b.alerts = a.alerts ++ (a.note event).toList.flatMap Note.messages := by
  cases step with
  | idle disabled => simp [note_of_disabled disabled]
  | proceed found answer => simp [note, alerts_setLoad]
  | answer underWay answer => simp [note, underWay, alert_endSubmit, Note.messages]
  | setValue value trigger => simp [note, alerts_keep]
  | emit trigger => simp [note, alerts_keep]
  | elsewhere change messages => simp [note, Note.messages]
  | _ => simp [note, setLoad]

/-- The last value that is to be seen is seen after a run. -/
theorem response_run (a : Activity σ) (events : List (Event σ)) :
    (a.run events).panel.response =
      ((a.history events).filterMap Note.response?).getLast?.elim a.panel.response
        ResponseView.ofValue := by
  induction events generalizing a with
  | nil => rfl
  | cons event events ih =>
    have first : ((a.note event).toList.filterMap Note.response?).getLast? =
        (a.note event).bind Note.response? := by
      cases a.note event with
      | none => rfl
      | some note => cases seen : note.response? <;> simp [seen]
    show ((a.perform event).run events).panel.response = _
    rw [ih, (a.step event).response, history, List.filterMap_append, List.getLast?_append, first]
    -- What the later events show hides what this one shows.
    cases ((a.perform event).history events |>.filterMap Note.response?).getLast? <;> rfl

/-- The messages of a run are those of its events, in order. -/
theorem alerts_run (a : Activity σ) (events : List (Event σ)) :
    (a.run events).alerts = a.alerts ++ (a.history events).flatMap Note.messages := by
  induction events generalizing a with
  | nil => exact (List.append_nil _).symm
  | cons event events ih =>
    show ((a.perform event).run events).alerts = _
    rw [ih, (a.step event).alerts, history, List.flatMap_append, List.append_assoc]

/-- An ended submission of a run is one of the panel, with the phase that it then had. -/
theorem exists_of_mem_history {a : Activity σ} {events : List (Event σ)} {last : Ending}
    (mem : Note.ended last ∈ a.history events) :
    ∃ (panel : Panel) (answer : Except Remote.RequestError Json), last = panel.ending answer := by
  induction events generalizing a with
  | nil => cases mem
  | cons event events ih =>
    rcases List.mem_append.mp mem with here | later
    · have noted := Option.mem_toList.mp here
      cases event with
      | answer answer =>
        simp only [note, Option.ite_none_left_eq_some] at noted
        exact ⟨a.panel, answer, (Note.ended.inj (Option.some.inj noted.2)).symm⟩
      | _ => simp [note] at noted
    · exact ih later

/-- A submission that starts, or that ends without a success in time, leaves alone what it is about. -/
theorem unseen_submission (a : Activity σ) {event : Event σ} (own : event.isSubmission = true)
    (unseen : (a.note event).bind Note.response? = none) :
    (a.perform event).panel.response = a.panel.response ∧
      (a.perform event).panel.form = a.panel.form ∧ (a.perform event).panel.state = a.panel.state ∧
      (a.perform event).store = a.store := by
  have rested : Rests a { a with panel := a.panel.atRest } := ⟨rfl, rfl, rfl⟩
  have kept := rested.submission (a.step event) own
  have response : (a.perform event).panel.response = a.panel.response := by
    rw [(a.step event).response, unseen]
    rfl
  exact ⟨response, kept.form.symm, kept.state.symm, kept.store.symm⟩

/-- **Response and messages tell the history of the submissions.** After every run the response shows
the last success of a submission that ended while the panel was mounted, and nothing if that was `null`
or there was none; each exchange that failed while it was mounted has added one message, which its
result has too, in the order in which they ended. Submissions that do not succeed in time change
nothing of this, and no submission changes the form, the value that is known to be saved or the
store. -/
theorem response_and_messages (verb path : String) (single : Bool) (store : σ)
    (alerts : List String) (events : List (Event σ)) :
    let fresh := start (Panel.make verb path single) store alerts
    let a := fresh.run events
    let unsent := fresh.run (events.filter (!·.isSubmission))
    a.panel.response = ((fresh.history events).filterMap Note.response?).getLast?.elim .hidden
        ResponseView.ofValue ∧
      a.alerts = alerts ++ (fresh.history events).flatMap Note.messages ∧
      (∀ ending, Note.ended ending ∈ fresh.history events → ∀ message ∈ ending.messages,
        ∃ failure, ending.result = .ok ⟨.failed, .null, some failure⟩ ∧
          failure.error.message = message) ∧
      (a.panel.form = unsent.panel.form ∧ a.panel.state = unsent.panel.state ∧
        a.store = unsent.store) ∧
      ∀ (b : Activity σ) (event : Event σ), event.isSubmission = true →
        (b.note event).bind Note.response? = none →
          (b.perform event).panel.response = b.panel.response ∧
            (b.perform event).panel.form = b.panel.form ∧
            (b.perform event).panel.state = b.panel.state ∧ (b.perform event).store = b.store := by
  intro fresh a unsent
  have rested : Rests fresh fresh := ⟨rfl, rfl, rfl⟩
  have kept : Rests a unsent := rested.run events
  refine ⟨fresh.response_run events, fresh.alerts_run events, ?_, ?_, ?_⟩
  · intro ending mem message told
    obtain ⟨panel, answer, rfl⟩ := exists_of_mem_history mem
    exact exists_failure_of_mem_messages told
  · exact ⟨kept.form.symm, kept.state.symm, kept.store.symm⟩
  · intro b event own unseen
    exact b.unseen_submission own unseen

/-- A load, a submission that succeeds and one whose exchange fails. -/
def mixedEvents : List (Event Store) :=
  [.load, .proceed 0 (.ok (.object [("type", .text "object")])), .proceed 0 (.error .closed),
    .proceed 0 (.error .closed), .submit, .answer (.ok (.bool true)), .submit,
    .answer (.error (.exchange (.network "GET" "/a" "ReadTimeout")))]

/-- The response of the success is still shown after the failure, which adds its message. -/
theorem success_outlasts_failure :
    let a := (start (Panel.make "get" "/a" false) (Store.memory []) []).run mixedEvents
    a.panel.response = .showing (.bool true) ∧
      a.alerts = [(Remote.ExchangeError.network "GET" "/a" "ReadTimeout").message] := by
  intro a
  obtain ⟨response, alerts, -⟩ :=
    response_and_messages "get" "/a" false (Store.memory []) [] mixedEvents
  have plain : Schema.resolve (.object [("type", .text "object")]) =
      .ok (.object [("type", .text "object")]) :=
    Schema.resolve_single (by decide) (by simp) (by simp)
  have history : (start (Panel.make "get" "/a" false) (Store.memory []) []).history mixedEvents =
      [.ended ⟨true, .ok (.bool true), .ok ⟨.displayed, .bool true, none⟩⟩,
        .ended ⟨true, .error (.exchange (.network "GET" "/a" "ReadTimeout")),
          .ok ⟨.failed, .null, some ⟨"GET", .network "GET" "/a" "ReadTimeout"⟩⟩⟩] := by
    have upper : Text.upper "get" = "GET" := by decide
    simp [Activity.history, mixedEvents, note, perform, start, setLoad, LoadStage.next, receive,
      isDocument, receiveSchema, plain, attach, Panel.make, startSubmit, endSubmit, freed,
      Panel.ending, upper]
  rw [history] at response alerts
  exact ⟨response, alerts⟩

end Activity

end Panel

end VerbForms
