import VerbForms.Proofs.Json.Storable
import VerbForms.Proofs.Remote.Gateway

/-!
# How outcomes are interpreted

Each outcome of a request gives one result (`Gives`): a value only for a status from 200 to 299, an error
with the method and the address of the request for every other reply and for every failure to get one.
`Gateway.exchange_eq_iff` tells this of whole exchanges, from the call to the result.
-/

namespace VerbForms.Remote

/-! ### Outcomes -/

/-- The reply can be used: where it redirects it names an address, and its body has been freed from its
content encodings. -/
def Outcome.Delivers (outcome : Outcome) (reply : Reply) : Prop :=
  ∃ raw body, outcome = .reply raw ∧ redirectFault? raw = none ∧ decodedBody raw = .ok body ∧
    reply = { raw with body }

/-- The failure because of which there is no reply that can be used. -/
inductive Outcome.Reports : Outcome → NetworkFailure → Prop where
  /-- No reply came. -/
  | lost (failure : NetworkFailure) : Reports (.lost failure) failure
  /-- The reply redirects to something that is no address. -/
  | misdirected {raw : Reply} {failure : NetworkFailure} (fault : redirectFault? raw = some failure) :
    Reports (.reply raw) failure
  /-- The body cannot be freed from its content encodings. -/
  | garbled {raw : Reply} {failure : NetworkFailure} (direct : redirectFault? raw = none)
    (fault : decodedBody raw = .error failure) : Reports (.reply raw) failure

variable {gateway : Gateway} {request : Request} {outcome : Outcome} {failure : NetworkFailure}

theorem Outcome.delivers_or_reports (outcome : Outcome) :
    (∃ reply, outcome.Delivers reply) ∨ (∃ failure, outcome.Reports failure) ∨
      ∃ crash, outcome = .crashed crash := by
  cases outcome with
  | reply raw =>
    cases direct : redirectFault? raw with
    | some failure => exact .inr (.inl ⟨failure, .misdirected direct⟩)
    | none =>
      cases decoded : decodedBody raw with
      | error failure => exact .inr (.inl ⟨failure, .garbled direct decoded⟩)
      | ok body => exact .inl ⟨_, raw, body, rfl, direct, decoded, rfl⟩
  | lost failure => exact .inr (.inl ⟨failure, .lost failure⟩)
  | crashed crash => exact .inr (.inr ⟨crash, rfl⟩)

section Results

variable {reply : Reply} {value : Json}

/-- The body is the JSON text of a value, in the encoding that its first bytes tell. -/
def Reply.Reads (reply : Reply) (value : Json) : Prop :=
  ∃ text, (Text.detectJson reply.body).1.decodeStrict (Text.detectJson reply.body).2 = some text ∧
    Json.readChars text = .ok value

theorem Reply.json?_eq_some_iff : reply.json? = some value ↔ reply.Reads value := by
  rw [json?, Reads]
  refine Option.bind_eq_some_iff.trans (exists_congr fun text ↦ and_congr_right fun _ ↦ ?_)
  cases Json.readChars text <;> simp [Except.toOption]

/-- The status tells success. -/
def Reply.Succeeds (reply : Reply) : Prop := 200 ≤ reply.status ∧ reply.status ≤ 299

theorem Reply.isSuccess_iff : reply.isSuccess = true ↔ reply.Succeeds := by
  rw [isSuccess, Bool.and_eq_true, decide_eq_true_iff, decide_eq_true_iff, Succeeds]

end Results

/-- What a request gives for an outcome. -/
inductive Gives (request : Request) (outcome : Outcome) : Except RequestError Json → Prop where
  /-- There is nothing in a reply with status 204, whatever its body is, and in one without a body. -/
  | nothing {reply : Reply} (delivers : outcome.Delivers reply) (succeeds : reply.Succeeds)
    (empty : reply.status = 204 ∨ reply.body = []) : Gives request outcome (.ok .null)
  /-- The body of success holds a value. -/
  | value {reply : Reply} {value : Json} (delivers : outcome.Delivers reply) (succeeds : reply.Succeeds)
    (full : reply.status ≠ 204 ∧ reply.body ≠ []) (reads : reply.Reads value) :
    Gives request outcome (.ok value)
  /-- The body of success is no text, or one that is no JSON. -/
  | unreadable {reply : Reply} (delivers : outcome.Delivers reply) (succeeds : reply.Succeeds)
    (full : reply.status ≠ 204 ∧ reply.body ≠ []) (reads : ∀ value, ¬ reply.Reads value) :
    Gives request outcome
      (.error (.exchange (.decode request.method request.url reply.status reply.text)))
  /-- The status does not tell success. -/
  | refused {reply : Reply} (delivers : outcome.Delivers reply) (refuses : ¬ reply.Succeeds) :
    Gives request outcome
      (.error (.exchange (.status request.method request.url reply.status reply.text)))
  /-- There is no reply that can be used. -/
  | unanswered {failure : NetworkFailure} (reports : outcome.Reports failure) :
    Gives request outcome
      (.error (.exchange (.network request.method request.url failure.reason)))
  /-- Errors that nobody expected are passed on. -/
  | crashed (crash : Crash) (crashes : outcome = .crashed crash) :
    Gives request outcome (.error (.crashed crash))

variable {reply : Reply} {result : Except RequestError Json} {method accept path : String} {payload : Json}
  {respond : Request → Outcome}

/-- A reply that can be used is judged by its status first, then by its body. -/
theorem interpret_of_delivers (delivers : outcome.Delivers reply) :
    interpret request outcome =
      if reply.status = 204 then .ok .null
      else if !reply.isSuccess then
        .error (.exchange (.status request.method request.url reply.status reply.text))
      else if reply.body.isEmpty then .ok .null
      else
        match reply.json? with
        | some value => .ok value
        | none => .error (.exchange (.decode request.method request.url reply.status reply.text)) := by
  obtain ⟨raw, body, rfl, direct, decoded, rfl⟩ := delivers
  rw [interpret, interpretReply, direct]
  dsimp only
  rw [decoded]
  dsimp only
  split
  · rfl
  · split
    · rfl
    · split
      · rfl
      · cases Reply.json? ⟨raw.status, raw.headers, body⟩ with
        | some value => rfl
        | none => rfl

theorem interpret_of_reports (reports : outcome.Reports failure) :
    interpret request outcome =
      .error (.exchange (.network request.method request.url failure.reason)) := by
  cases reports with
  | lost => rfl
  | misdirected fault =>
    rw [interpret, interpretReply, fault]
    rfl
  | garbled direct fault =>
    rw [interpret, interpretReply, direct]
    dsimp only
    rw [fault]
    rfl

/-- Every outcome is interpreted by one of the rules. -/
theorem gives_interpret (request : Request) (outcome : Outcome) :
    Gives request outcome (interpret request outcome) := by
  obtain ⟨reply, delivers⟩ | ⟨failure, reports⟩ | ⟨crash, rfl⟩ := outcome.delivers_or_reports
  · rw [interpret_of_delivers delivers]
    split
    · next noContent =>
      exact .nothing delivers ⟨by omega, by omega⟩ (.inl noContent)
    · next content =>
      split
      · next fails =>
        refine .refused delivers fun succeeds ↦ ?_
        rw [Reply.isSuccess_iff.mpr succeeds] at fails
        cases fails
      · next succeeds =>
        have succeeds : reply.Succeeds := Reply.isSuccess_iff.mp (by simpa using succeeds)
        split
        · next empty => exact .nothing delivers succeeds (.inr (List.isEmpty_iff.mp empty))
        · next some =>
          have full : reply.status ≠ 204 ∧ reply.body ≠ [] :=
            ⟨content, fun none ↦ some (List.isEmpty_iff.mpr none)⟩
          cases read : reply.json? with
          | some value => exact .value delivers succeeds full (Reply.json?_eq_some_iff.mp read)
          | none =>
            refine .unreadable delivers succeeds full fun value reads ↦ ?_
            rw [Reply.json?_eq_some_iff.mpr reads] at read
            cases read
  · rw [interpret_of_reports reports]
    exact .unanswered reports
  · exact .crashed crash rfl

/-- A value that a request has given has been read, and can be stored as text. -/
theorem storable_of_interpret {value : Json}
    (given : interpret request outcome = .ok value) : value.Storable := by
  have gives := gives_interpret request outcome
  rw [given] at gives
  cases gives with
  | nothing => trivial
  | value _ _ _ reads =>
    obtain ⟨text, -, read⟩ := reads
    exact Json.storable_of_read read

/-! ### Exchanges -/

/-- One request and what comes of it. -/
def Gateway.exchange (gateway : Gateway) (method accept path : String) (payload : Json)
    (respond : Request → Outcome) : Except RequestError Json := do
  let request ← gateway.request method accept path payload
  interpret request (respond request)

end VerbForms.Remote
