import VerbForms.Proofs.Desk.Sending
import VerbForms.Proofs.Remote.BasePath

/-!
# Requests below the base

The requests that a console sends are for the schemas of its panels, for its resource, and submissions
(`Console.Sends`); a desk sends no others for it. Dot segments in the path of a resource lead such requests
out of the path of the base, unless the path goes down again the way that it has gone up.
-/

namespace VerbForms

open Remote (Address Course Gateway Request)

variable {console : Console} {request : Request}

/-- A request that a console sends. -/
inductive Console.Sends (console : Console) (request : Request) : Prop where
  | schema {panel : Panel} : panel ∈ console.panels →
      console.gateway.request "GET" Remote.schemaMime panel.schemaQuery .null = .ok request →
      Sends console request
  | reading : console.gateway.request "GET" Remote.jsonMime "" .null = .ok request → Sends console request
  | submission {panel : Panel} {payload : Json} : panel ∈ console.panels →
      console.gateway.request panel.verb Remote.jsonMime "" payload = .ok request → Sends console request

/-- A request of a console goes to its resource, perhaps with a query. -/
theorem Console.Sends.exists_addressOf (sends : console.Sends request) : ∃ path,
    Remote.MeansResource path ∧ console.gateway.addressOf path = .ok request.address := by
  cases sends with
  | schema _ sent =>
    obtain ⟨_, found, rfl⟩ := Gateway.request_eq_ok sent
    exact ⟨_, Remote.meansResource_schemaQuery _, found⟩
  | reading sent =>
    obtain ⟨_, found, rfl⟩ := Gateway.request_eq_ok sent
    exact ⟨_, Remote.meansResource_empty, found⟩
  | submission _ sent =>
    obtain ⟨_, found, rfl⟩ := Gateway.request_eq_ok sent
    exact ⟨_, Remote.meansResource_empty, found⟩

/-! ### Requests of a desk -/

namespace Desk

variable {desk after : Desk} {task : TaskId} {id : ConsoleId} {index : Nat}

/-- At most one request is sent, and a console sends it. -/
def SendsFor (desk : Desk) (id : ConsoleId) (after : Desk) : Prop :=
  after.sent = desk.sent ∨ ∃ console request, desk.console? id = some console ∧ console.Sends request ∧
    after.sent = desk.sent ++ [request]

theorem sent_endLoad (desk : Desk) (task : TaskId) (id : ConsoleId) (index : Nat)
    (error : Option Remote.RequestError) : (desk.endLoad task id index error).sent = desk.sent := by
  unfold endLoad
  split
  · exact desk.sent_finish task _
  · split <;> exact sent_finish _ task _

/-- The request of `ask` is that of the gateway. -/
theorem sent_ask (desk : Desk) (task : TaskId) (purpose : Purpose) (method accept path : String)
    (payload : Json) :
    (desk.ask task purpose method accept path payload).sent = desk.sent ∨ ∃ console request,
      desk.console? purpose.console = some console ∧
        console.gateway.request method accept path payload = .ok request ∧
        (desk.ask task purpose method accept path payload).sent = desk.sent ++ [request] := by
  cases found : desk.console? purpose.console with
  | none =>
    left
    rw [ask, found]
    exact desk.sent_finish task _
  | some console =>
    cases asked : console.gateway.request method accept path payload with
    | ok request => exact .inr ⟨console, request, rfl, asked, (sendsOnce_ask found asked).sent⟩
    | error error =>
      left
      rw [ask, found]
      dsimp only
      rw [asked]
      exact desk.sent_receive task _ purpose

/-- A desk sends no request to read a resource but that of the console. -/
theorem sendsFor_read (desk : Desk) (task : TaskId) (id : ConsoleId) :
    desk.SendsFor id (desk.begin task (.read id)) := by
  refine (desk.sent_ask task (.resource id) "GET" Remote.jsonMime "" .null).imp_right ?_
  rintro ⟨console, request, found, asked, sent⟩
  exact ⟨console, request, found, .reading asked, sent⟩

theorem sendsFor_load (desk : Desk) (task : TaskId) (id : ConsoleId) (index : Nat) (unmounting : Bool) :
    desk.SendsFor id (desk.load task id index unmounting) := by
  unfold load
  split
  · exact .inl (desk.sent_finish task _)
  · next panel there =>
    obtain ⟨console, found, mem⟩ := Option.bind_eq_some_iff.mp there
    split
    · refine (desk.sent_ask task (.schema id index unmounting) "GET" Remote.schemaMime panel.schemaQuery
        .null).imp_right ?_
      rintro ⟨own, request, found', asked, sent⟩
      obtain rfl := Option.some.inj (found.symm.trans found')
      exact ⟨console, request, found, .schema (List.mem_of_getElem? mem) asked, sent⟩
    · exact .inl (desk.sent_endLoad task id index none)

theorem sendsFor_submit (desk : Desk) (task : TaskId) (id : ConsoleId) (index : Nat) :
    desk.SendsFor id (desk.submit task id index) := by
  unfold submit
  split
  · exact .inl (desk.sent_finish task _)
  · next panel there =>
    obtain ⟨console, found, mem⟩ := Option.bind_eq_some_iff.mp there
    split
    · split <;> exact .inl (desk.sent_finish task _)
    · split <;> exact .inl (desk.sent_finish task _)
    · next sending payload started =>
      obtain ⟨-, rfl⟩ := Panel.startSubmit_eq_sending started
      refine ((desk.setPanel id index _).sent_ask task (.submission id index) panel.verb Remote.jsonMime ""
        payload).imp_right ?_
      -- The panel has another phase by now, which its request does not show.
      rintro ⟨own, request, found', asked, sent⟩
      have changed := console?_modifyConsole_self found (·.setPanel index { panel with phase := .submitting })
      obtain rfl := Option.some.inj (changed.symm.trans found')
      exact ⟨console, request, found, .submission (List.mem_of_getElem? mem) asked, sent⟩

end Desk

/-! ### Below the base -/

namespace Console

/-- **Requests stay below the base unless the path climbs out of it.** Consider a console for a path that
the host accepts, under a base address with a host, whatever has been done with the console since. The path
of each request that it sends begins with the path of the base exactly if the base has a query, or the course
of the path stays below the names of the base: it goes down again by the names that it has gone up by, and
further. -/
theorem requests_stay_below_base_iff {given path baseUrl : String} {verbs : List String} {single : Bool}
    {fresh : Console} (named : Host.normalizeResource given = .ok path)
    (built : build baseUrl path verbs single = .ok fresh) (works : fresh.Works console)
    (host : console.gateway.base.host ≠ []) (sends : console.Sends request) :
    console.gateway.base.shownPath <+: request.address.shownPath ↔
      console.gateway.base.query ≠ none ∨
        (Course.ofSegments (Remote.resourceSegments path)).StaysBelow console.gateway.base.names := by
  obtain ⟨target, means, found⟩ := sends.exists_addressOf
  have made : Gateway.make baseUrl path = .ok console.gateway := by
    rw [build] at built
    split at built
    · next gateway made =>
      rw [works.gateway, make_eq_ok built]
      exact made
    · cases built
  have kept : console.gateway.resourcePath = path := by
    rw [(Gateway.make_eq_ok made).1, Remote.keptPath_of_normalizeResource named]
  have rooted : Remote.Rooted console.gateway.resourcePath :=
    kept ▸ Remote.rooted_of_normalizeResource named
  rw [Gateway.below_base_iff made host rooted means found, kept]

/-- A console with one panel under a base with a path. -/
def apiConsole (path : String) : Console :=
  ofPanels path true [.make "GET" path true]
    ⟨⟨"https".toList, [], "upstream.test".toList, none, "/api/".toList, none, none⟩, path, false⟩

/-- A path that leaves the base and comes back stays below it. -/
theorem returning_path_stays_below : ∃ console request,
    Host.normalizeResource "../api/pets" = .ok "/../api/pets" ∧
      build "https://upstream.test/api" "/../api/pets" ["get"] true = .ok console ∧
      console.gateway.base.shownPath = "/api/".toList ∧ console.Sends request ∧
      request.url = "https://upstream.test/api/pets" ∧
      console.gateway.base.shownPath <+: request.address.shownPath := by
  have named : Host.normalizeResource "../api/pets" = .ok "/../api/pets" := by with_unfolding_all rfl
  have built : build "https://upstream.test/api" "/../api/pets" ["get"] true =
      .ok (apiConsole "/../api/pets") := by with_unfolding_all rfl
  have sent : (apiConsole "/../api/pets").gateway.request "GET" Remote.jsonMime "" .null =
      .ok ⟨"GET", ⟨"https".toList, [], "upstream.test".toList, none, "/api/pets".toList, none, none⟩,
        Remote.jsonMime, none⟩ := by with_unfolding_all rfl
  have sends := Sends.reading sent
  have works : (apiConsole "/../api/pets").Works (apiConsole "/../api/pets") :=
    ⟨rfl, List.forall₂_refl _⟩
  have below := requests_stay_below_base_iff named built works (by decide) sends
  refine ⟨_, _, named, built, rfl, sends, by decide +kernel, below.mpr (.inr (.inr ?_))⟩
  exact ⟨["pets".toList], List.cons_ne_nil _ _, by decide +kernel⟩

/-- A path that begins with two dots leaves the base for good. -/
theorem exists_request_beside_base : ∃ console request,
    Host.normalizeResource "/../admin" = .ok "/../admin" ∧
      build "https://upstream.test/api" "/../admin" ["get"] true = .ok console ∧
      console.gateway.base.shownPath = "/api/".toList ∧ console.Sends request ∧
      request.url = "https://upstream.test/admin" ∧
      ¬console.gateway.base.shownPath <+: request.address.shownPath := by
  have named : Host.normalizeResource "/../admin" = .ok "/../admin" := by with_unfolding_all rfl
  have built : build "https://upstream.test/api" "/../admin" ["get"] true =
      .ok (apiConsole "/../admin") := by with_unfolding_all rfl
  have sent : (apiConsole "/../admin").gateway.request "GET" Remote.jsonMime "" .null =
      .ok ⟨"GET", ⟨"https".toList, [], "upstream.test".toList, none, "/admin".toList, none, none⟩,
        Remote.jsonMime, none⟩ := by with_unfolding_all rfl
  exact ⟨_, _, named, built, rfl, .reading sent, by decide +kernel, by decide⟩

end Console

end VerbForms
