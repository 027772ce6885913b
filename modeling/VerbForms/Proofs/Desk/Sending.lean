import VerbForms.Proofs.Desk.Moves
import VerbForms.Proofs.Desk.Values
import VerbForms.Proofs.Json.RoundTrip
import VerbForms.Proofs.Panel.Submitting
import VerbForms.Proofs.Text.Utf8

/-!
# What a submission sends

On a desk where all consoles are fit (`Ready`) the submission of a rendered panel cannot fail before it has
sent its request. The request is made of the value that the form has at that moment, and what happens on the
desk later adds other requests behind it.
-/

namespace VerbForms

open Remote (Request)

/-- A request carries a value: read as UTF-8, its body is a JSON text of the value. -/
structure Remote.Request.Carries (request : Request) (value : Json) : Prop where
  contentType : request.contentType = some "application/json"
  reads : ∃ body text, request.body = some body ∧
    Text.Encoding.utf8.decodeStrict (Text.utf8 body) = some text ∧ Json.readChars text = .ok value

namespace Desk

variable {desk after : Desk} {task : TaskId} {id : ConsoleId} {index : Nat} {path : String}

/-! ### Consoles that are fit -/

/-- All consoles are fit, and tasks wait for answers only for consoles that have reached their resource. -/
structure Ready (desk : Desk) : Prop where
  expects : desk.Expects
  fit : ∀ console ∈ desk.consoles, console.Fit

theorem ready_make (store : Store) (script : Remote.Script) (registry : Registry) (factory : Factory) :
    (Desk.make store script registry factory).Ready :=
  ⟨List.forall_mem_nil _, List.forall_mem_nil _⟩

theorem Ready.console (h : desk.Ready) {console : Console} (found : desk.console? id = some console) :
    console.Fit := by
  rw [console?_eq] at found
  exact h.fit console (List.mem_of_getElem? found)

/-- Every single change leaves the consoles fit. -/
theorem Ready.move (h : desk.Ready) (step : Moves desk after) : after.Ready := by
  refine ⟨h.expects.move step, ?_⟩
  have modified (id : ConsoleId) {f : Console → Console}
      (kept : ∀ console, desk.console? id = some console → (f console).Fit) :
      ∀ console ∈ (desk.modifyConsole id f).consoles, console.Fit := by
    intro console mem
    rw [consoles_modifyConsole] at mem
    obtain ⟨place, found⟩ := List.getElem?_of_mem mem
    rw [List.getElem?_modify] at found
    obtain ⟨old, here, rfl⟩ := Option.map_eq_some_iff.mp found
    split
    · next same => exact kept old (by rw [console?_eq, same, here])
    · exact h.fit old (List.mem_of_getElem? here)
  cases step with
  | kept same => exact same ▸ h.fit
  | asked => exact h.fit
  | worked id works => exact modified id fun console found ↦ (h.console found).works (works console found)
  | closed id => exact modified id fun console found ↦ (h.console found).close
  | added own fresh =>
    intro console mem
    rw [consoles, addConsole, List.map_append] at mem
    rcases List.mem_append.mp mem with old | new
    · exact h.fit console old
    · rw [List.mem_singleton.mp new]
      exact fresh.fit

theorem Ready.run (h : desk.Ready) (run : Becomes desk after) : after.Ready := by
  induction run with
  | refl => exact h
  | tail _ step ih => exact ih.move step

/-! ### Requests that have been sent -/

/-- No request that has been sent is changed or taken back. -/
theorem sent_prefix_of_move (step : Moves desk after) : desk.sent <+: after.sent := by
  cases step with
  | kept _ same => rw [same]
  | asked => exact List.prefix_append _ _
  | worked | closed | added => exact List.prefix_rfl

theorem sent_prefix_of_run (run : Becomes desk after) : desk.sent <+: after.sent := by
  induction run with
  | refl => exact List.prefix_rfl
  | tail _ step ih => exact ih.trans (sent_prefix_of_move step)

/-- An answer ends the task, and nothing is sent for it. -/
theorem exists_finish_receive (desk : Desk) (task : TaskId) (answer : Except Remote.RequestError Json)
    (purpose : Purpose) : ∃ ending, ∃ last : Desk,
      desk.receive task answer purpose = last.finish task ending ∧ last.sent = desk.sent := by
  have endLoad (desk : Desk) (id : ConsoleId) (index : Nat) (error : Option Remote.RequestError) :
      ∃ ending, ∃ last : Desk, desk.endLoad task id index error = last.finish task ending ∧
        last.sent = desk.sent := by
    unfold Desk.endLoad
    split
    · exact ⟨_, desk, rfl, rfl⟩
    · split
      · exact ⟨_, desk, rfl, rfl⟩
      · exact ⟨_, _, rfl, rfl⟩
      · exact ⟨_, desk, rfl, rfl⟩
  cases purpose with
  | schema id index unmounting =>
    rw [receive, receiveSchema]
    split
    · exact ⟨_, desk, rfl, rfl⟩
    · split <;> exact endLoad (desk.setPanel id index _) id index _
  | submission id index =>
    rw [receive, receiveSubmission]
    split
    · exact ⟨_, desk, rfl, rfl⟩
    · dsimp only
      split <;> exact ⟨_, _, rfl, rfl⟩
  | resource id =>
    rw [receive, receiveResource]
    split
    · exact ⟨_, desk, rfl, rfl⟩
    · dsimp only
      split <;> exact ⟨_, _, rfl, rfl⟩

theorem sent_finish (desk : Desk) (task : TaskId) (ending : Ending) :
    (desk.finish task ending).sent = desk.sent := by
  rw [finish]
  split <;> rfl

theorem sent_receive (desk : Desk) (task : TaskId) (answer : Except Remote.RequestError Json)
    (purpose : Purpose) : (desk.receive task answer purpose).sent = desk.sent := by
  obtain ⟨ending, last, received, same⟩ := desk.exists_finish_receive task answer purpose
  rw [received, sent_finish, same]

theorem sent_answerFor (desk : Desk) (id : ConsoleId) (request : Request) :
    (desk.answerFor id request).1.sent = desk.sent := by
  rw [answerFor]
  split <;> rfl

/-- One request is sent for a purpose: afterwards the task waits for the answer to it or has ended. -/
structure SendsOnce (desk : Desk) (task : TaskId) (purpose : Purpose) (request : Request) (after : Desk) :
    Prop where
  sent : after.sent = desk.sent ++ [request]
  stage : ∀ current, after.tasks[task]? = some current → (∃ ending, current.stage = .ended ending) ∨
    ∃ outcome, current.stage = .asking purpose request outcome

theorem sendsOnce_ask {console : Console} {purpose : Purpose} {method accept : String} {payload : Json}
    {request : Request} (found : desk.console? purpose.console = some console)
    (asked : console.gateway.request method accept path payload = .ok request) :
    SendsOnce desk task purpose request (desk.ask task purpose method accept path payload) := by
  have answered := sent_answerFor { desk with sent := desk.sent ++ [request] } purpose.console request
  rw [ask, found]
  dsimp only
  rw [asked]
  dsimp only
  generalize { desk with sent := desk.sent ++ [request] }.answerFor purpose.console request = result
    at answered ⊢
  obtain ⟨asking, answer⟩ := result
  dsimp only at answered ⊢
  split
  · obtain ⟨ending, last, received, same⟩ :=
      asking.exists_finish_receive task (Remote.interpret request answer.outcome) purpose
    rw [received]
    refine ⟨?_, fun current there ↦ .inl ⟨ending, last.stage_finish there⟩⟩
    rw [sent_finish, same, answered]
  · refine ⟨answered, fun current there ↦ .inr ⟨answer.outcome, ?_⟩⟩
    rw [waitAt, setStage, tasks_modifyTask_self] at there
    obtain ⟨old, -, rfl⟩ := Option.map_eq_some_iff.mp there
    rfl

/-! ### Submissions -/

/-- The submission of a rendered panel sends its payload: the panel has a form, and the gateway is open and
has an address for it. -/
theorem Ready.sendsOnce_submit (h : desk.Ready) {panel : Panel} (found : desk.panel? id index = some panel)
    (rendered : panel.phase = .rendered) (task : TaskId) :
    ∃ form address, panel.form = some form ∧ SendsOnce desk task (.submission id index)
      ⟨panel.verb, address, Remote.jsonMime,
        Remote.Gateway.bodyText (Panel.payloadOf panel.verb form.value)⟩ (desk.submit task id index) := by
  obtain ⟨console, there, here⟩ := Option.bind_eq_some_iff.mp found
  have fit := h.console there panel (List.mem_of_getElem? here)
  obtain ⟨some, address, reached⟩ := fit.form (by rw [Panel.isRendered, rendered]; rfl)
  obtain ⟨form, shown⟩ := Option.isSome_iff_exists.mp some
  have opened : console.gateway.closed = false := by
    refine Bool.eq_false_iff.mpr fun closed ↦ ?_
    cases rendered.symm.trans (fit.closed closed)
  have asked : console.gateway.request panel.verb Remote.jsonMime ""
      (Panel.payloadOf panel.verb form.value) = .ok ⟨panel.verb, address, Remote.jsonMime,
        Remote.Gateway.bodyText (Panel.payloadOf panel.verb form.value)⟩ := by
    unfold Remote.Gateway.request
    rw [reached]
    dsimp only
    rw [opened, fit.verb]
    rfl
  have put := console?_modifyConsole_self there (·.setPanel index { panel with phase := .submitting })
  have sends : SendsOnce (desk.setPanel id index { panel with phase := .submitting }) task
      (.submission id index) _ _ := sendsOnce_ask put asked
  refine ⟨form, address, shown, ?_⟩
  rw [submit, found]
  dsimp only
  rw [Panel.startSubmit_of_rendered rendered shown]
  exact ⟨sends.sent, sends.stage⟩

/-- **A submission carries the value of the form.** Whatever has happened on a desk, the submission of a
rendered panel sends one request, with the verb of the panel as its method. Unless the verb is `GET`, the
request carries the value that the form has when the submission begins; with `GET` it has neither a body nor
a content type. Whatever happens later, the request stays as it was sent, and the answer to it sends
nothing. -/
theorem submission_carries_value {store : Store} {script : Remote.Script} {registry : Registry}
    {factory : Factory} (run : Becomes (Desk.make store script registry factory) desk) {panel : Panel}
    (found : desk.panel? id index = some panel) (rendered : panel.phase = .rendered) (task : TaskId) :
    ∃ form request, panel.form = some form ∧
      SendsOnce desk task (.submission id index) request (desk.submit task id index) ∧
      request.method = panel.verb ∧
      (panel.verb = "GET" → request.body = none ∧ request.contentType = none) ∧
      (panel.verb ≠ "GET" → form.value.Storable → request.Carries form.value) ∧
      ∀ later, Becomes (desk.submit task id index) later →
        later.sent[desk.sent.length]? = some request ∧
          ∀ answer, (later.receive task answer (.submission id index)).sent = later.sent := by
  have ready := (ready_make store script registry factory).run run
  obtain ⟨form, address, shown, sends⟩ := ready.sendsOnce_submit found rendered task
  refine ⟨form, _, shown, sends, rfl, fun get ↦ ?_, fun other storable ↦ ?_, fun later more ↦ ⟨?_, ?_⟩⟩
  · rw [Panel.payloadOf, if_pos get]
    exact ⟨rfl, rfl⟩
  · rw [Panel.payloadOf, if_neg other]
    exact ⟨rfl, _, _, rfl, Text.decodeStrict_utf8 form.value.compact, Json.read_print .line storable⟩
  · obtain ⟨rest, same⟩ := sent_prefix_of_run more
    rw [← same, sends.sent, List.append_assoc]
    simp
  · exact fun answer ↦ later.sent_receive task answer _

/-- A form that holds `null` is sent as the text of `null`, and not as no body. -/
theorem null_is_carried : ∃ (desk : Desk) (panel : Panel) (request : Request),
    Becomes exampleStart desk ∧ desk.panel? 0 0 = some panel ∧ panel.phase = .rendered ∧
      SendsOnce desk 1 (.submission 0 0) request (desk.submit 1 0 0) ∧ request.method = "PUT" ∧
      request.Carries .null := by
  have run := (ready_make (.memory []) exampleScript exampleRegistry exampleFactory).expects.run_serve
    (.setValue "PUT" .null "change") none "/a"
  have loaded : (((Desk.make (.memory []) exampleScript exampleRegistry exampleFactory).serve
      (.setValue "PUT" .null "change") none "/a").1.panel? 0 0).map (fun panel ↦ (panel.verb, panel.phase,
        panel.form.any fun form ↦ (Remote.Gateway.bodyText form.value).isNone)) =
          some ("PUT", .rendered, true) := by decide +kernel
  obtain ⟨panel, found, parts⟩ := Option.map_eq_some_iff.mp loaded
  simp only [Prod.mk.injEq] at parts
  obtain ⟨verb, phase, nothing⟩ := parts
  obtain ⟨form, request, shown, sends, method, -, carries, -⟩ := submission_carries_value run found phase 1
  -- Only `null` gives no body of its own.
  have value : form.value = .null := by
    rw [shown, Option.any_some] at nothing
    cases held : form.value with
    | null => rfl
    | _ =>
      rw [held] at nothing
      cases nothing
  have carried := carries (by rw [verb]; decide) (by rw [value]; trivial)
  rw [value] at carried
  exact ⟨_, panel, request, run, found, phase, sends, method.trans verb, carried⟩

end Desk

end VerbForms
