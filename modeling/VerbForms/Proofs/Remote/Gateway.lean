import VerbForms.Host.Route
import VerbForms.Panel.Basic
import VerbForms.Proofs.Remote.Server
import Mathlib.Data.List.DropRight

/-!
# Where gateways send requests

The path of a resource begins with one slash, and so does every target that means the resource or adds a
query to it. A gateway sends requests for such targets to the server of its base address
(`Gateway.sameServer_request`).
-/

namespace VerbForms.Remote

variable {gateway : Gateway} {request : Request} {baseUrl resource path given method accept text : String}
  {payload : Json} {cs rest : List Char}

/-! ### Paths of resources -/

/-- What is left of a text with one slash in front, when blanks at its end go. -/
theorem Rooted.of_prefix (h : Rooted text) {kept : String} (front : kept.toList <+: text.toList)
    (some : kept.toList ≠ []) : Rooted kept := by
  obtain ⟨rest, chars, one⟩ := h
  rw [chars] at front
  obtain ⟨c, cs, same⟩ := List.exists_cons_of_ne_nil some
  rw [same] at front
  obtain ⟨rfl, behind⟩ := List.cons_prefix_cons.mp front
  refine ⟨cs, same, fun slash ↦ one ?_⟩
  cases cs with
  | nil => cases slash
  | cons d ds =>
    obtain ⟨back, split⟩ := behind
    rw [← split]
    exact slash

theorem trimChars_cons {c : Char} (plain : Text.isBlank c = false) (rest : List Char) :
    Text.trimChars (c :: rest) ≠ [] ∧ Text.trimChars (c :: rest) <+: c :: rest := by
  have trimmed : Text.trimChars (c :: rest) = (c :: rest).rdropWhile Text.isBlank := by
    rw [Text.trimChars, List.dropWhile_cons, plain]
    rfl
  rw [trimmed]
  refine ⟨fun none ↦ ?_, List.rdropWhile_prefix _ _⟩
  have blank := List.rdropWhile_eq_nil_iff.mp none c List.mem_cons_self
  rw [plain] at blank
  cases blank

theorem Rooted.keptPath (h : Rooted path) : Rooted (Gateway.keptPath path) := by
  obtain ⟨rest, chars, one⟩ := h
  obtain ⟨some, front⟩ := trimChars_cons (c := '/') rfl rest
  rw [← chars] at some front
  have full : (Text.trim path).isEmpty = false := by
    rw [← Bool.not_eq_true, String.isEmpty_iff, ← String.toList_inj, Text.trim, String.toList_ofList]
    exact some
  rw [Gateway.keptPath, full, if_neg Bool.false_ne_true]
  refine Rooted.of_prefix ⟨rest, chars, one⟩ ?_ ?_
  · rwa [Text.trim, String.toList_ofList]
  · rwa [Text.trim, String.toList_ofList]

theorem beginsWith_iff {start : String} {c : Char} (one : start.toList = [c]) (text : String) :
    Text.beginsWith start text = true ↔ text.toList.head? = some c := by
  rw [Text.beginsWith, one]
  cases text.toList with
  | nil => simp
  | cons d ds =>
    simp only [List.isPrefixOf, Bool.and_true, beq_iff_eq, List.head?_cons, Option.some.injEq]
    exact eq_comm

/-- **The path of a resource begins with one slash.** -/
theorem rooted_of_normalizeResource (named : Host.normalizeResource given = .ok path) : Rooted path := by
  unfold Host.normalizeResource at named
  dsimp only at named
  generalize (if (Text.trim given).isEmpty then "/" else Text.trim given) = trimmed at named
  split at named
  · cases named
  · next relative =>
    cases named
    split
    · next slash =>
      obtain ⟨rest, chars⟩ := List.head?_eq_some_iff.mp ((beginsWith_iff rfl trimmed).mp slash)
      refine ⟨rest, chars, fun second ↦ relative ?_⟩
      obtain ⟨more, rfl⟩ := List.head?_eq_some_iff.mp second
      have two : Text.beginsWith "//" trimmed = true := by
        rw [Text.beginsWith, chars]
        rfl
      rw [two, Bool.or_true]
    · next noSlash =>
      refine ⟨trimmed.toList, ?_, fun first ↦ noSlash ((beginsWith_iff rfl trimmed).mpr first)⟩
      rw [String.toList_append]
      rfl

/-! ### Targets of consoles -/

/-- A target that means the resource itself or adds a query to it. -/
def MeansResource (path : String) : Prop :=
  Text.trim path = "" ∨ Text.beginsWith "?" (Text.trim path) = true

theorem meansResource_empty : MeansResource "" := .inl rfl

theorem meansResource_schemaQuery (panel : Panel) : MeansResource panel.schemaQuery := by
  rw [Panel.schemaQuery]
  split
  · exact meansResource_empty
  · right
    have chars : (s!"?method={panel.verb}").toList = '?' :: ("method=".toList ++ panel.verb.toList) :=
      String.toList_append
    obtain ⟨some, front⟩ := trimChars_cons (c := '?') rfl ("method=".toList ++ panel.verb.toList)
    obtain ⟨c, cs, same⟩ := List.exists_cons_of_ne_nil some
    rw [same] at front
    obtain rfl := (List.cons_prefix_cons.mp front).1
    refine (beginsWith_iff rfl _).mpr ?_
    rw [Text.trim, chars, String.toList_ofList, same]
    rfl

theorem Rooted.append_query {query : String} (h : Rooted resource) (starts : query.toList = '?' :: rest) :
    Rooted (resource ++ query) := by
  obtain ⟨behind, chars, one⟩ := h
  refine ⟨behind ++ '?' :: rest, by rw [String.toList_append, chars, starts]; rfl, fun second ↦ ?_⟩
  cases behind with
  | nil => cases second
  | cons c cs => exact one second

theorem Rooted.target (h : Rooted resource) (means : MeansResource path) :
    Rooted (Gateway.target resource path) := by
  unfold Gateway.target
  dsimp only
  split
  · exact h
  · next full =>
    rcases means with empty | query
    · rw [empty] at full
      exact absurd (String.isEmpty_iff.mpr rfl) full
    · rw [if_pos query]
      obtain ⟨rest, starts⟩ := List.head?_eq_some_iff.mp ((beginsWith_iff rfl _).mp query)
      exact h.append_query starts

/-! ### Requests -/

/-- The text that the base address of a gateway is read from. -/
def Gateway.baseText (baseUrl : String) : String :=
  let baseUrl := Text.trim baseUrl
  if baseUrl.toList.getLast? = some '/' then baseUrl else baseUrl ++ "/"

theorem Gateway.make_eq_ok (made : Gateway.make baseUrl resource = .ok gateway) :
    gateway.resourcePath = keptPath resource ∧
      (Address.parse (baseText baseUrl) >>= Address.asBase) = .ok gateway.base := by
  unfold Gateway.make at made
  dsimp only at made
  split at made
  · cases made
  · generalize url : (if (Text.trim baseUrl).toList.getLast? = some '/' then Text.trim baseUrl
      else Text.trim baseUrl ++ "/") = text at made
    have url : baseText baseUrl = text := url
    rw [url]
    split at made
    · next base based =>
      cases made
      exact ⟨by dsimp only, based⟩
    · cases made

/-- A gateway that can be made has the server of its base address. -/
theorem Gateway.sameServer_make (made : Gateway.make baseUrl resource = .ok gateway) :
    gateway.resourcePath = keptPath resource ∧ gateway.base.Normal ∧
      ∃ upstream, Address.parse (baseText baseUrl) = .ok upstream ∧ upstream.SameServer gateway.base := by
  obtain ⟨resourcePath, based⟩ := make_eq_ok made
  obtain ⟨upstream, parsed, asBase⟩ := bind_eq_ok.mp based
  obtain ⟨normal, same⟩ := (Address.normal_of_parse parsed).asBase asBase
  exact ⟨resourcePath, normal, upstream, parsed, same⟩

theorem Gateway.request_eq_ok (sent : gateway.request method accept path payload = .ok request) :
    ∃ address, gateway.addressOf path = .ok address ∧
      request = ⟨Text.upper method, address, accept, bodyText payload⟩ := by
  unfold Gateway.request at sent
  split at sent
  · cases sent
  · next address found =>
    split at sent
    · cases sent
    · exact ⟨address, found, (Except.ok.inj sent).symm⟩

/-- **A gateway sends requests for its resource to the server of its base address.** -/
theorem Gateway.sameServer_request (normal : gateway.base.Normal) (rooted : Rooted gateway.resourcePath)
    (means : MeansResource path) (sent : gateway.request method accept path payload = .ok request) :
    gateway.base.SameServer request.address := by
  obtain ⟨address, found, rfl⟩ := request_eq_ok sent
  obtain ⟨target, parsed, joined⟩ := bind_eq_ok.mp found
  obtain ⟨-, -, relative⟩ := not_isAbsolute_of_rooted (rooted.target means) parsed
  rw [Address.join, relative, if_neg Bool.false_ne_true] at joined
  exact (normal.sameServer joined).2

end VerbForms.Remote
