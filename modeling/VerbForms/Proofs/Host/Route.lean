import VerbForms.Host.Route
import VerbForms.Proofs.Host.Perform
import VerbForms.Proofs.Json.Storable

/-!
# What requests ask for

A request that sets a value does so with one of the triggers that save, and its value, as it has been read
from the body, can be stored (`route_wellFormed`).
-/

namespace VerbForms.Host

variable {request : Request} {body : Json} {members : Members} {verb trigger default : String}
  {errand : Errand}

theorem storable_readBody (read : readBody request = .ok (some body)) : body.Storable := by
  unfold readBody at read
  split at read
  · cases read
  · split at read
    · cases read
      trivial
    · dsimp only at read
      split at read
      · cases read
      · split at read
        · cases read
        · next value there =>
          cases read
          exact Json.storable_of_read there
        · split at read <;> cases read

theorem bodyMembers_eq_ok (given : bodyMembers body = .ok members) : body = .object members := by
  unfold bodyMembers at given
  split at given
  · cases given
    rfl
  · cases given

theorem triggerIn_mem (known : default ∈ Store.saveTriggers)
    (given : triggerIn members default = .ok trigger) : trigger ∈ Store.saveTriggers := by
  unfold triggerIn at given
  split at given
  · cases given
    exact known
  · split at given
    · next mem =>
      cases given
      exact mem
    · cases given
  · cases given

theorem storable_member {key : String} (storable : (Json.object members).Storable) :
    ((Assoc.get? members key).getD .null).Storable := by
  cases found : Assoc.get? members key with
  | none => trivial
  | some value => exact Json.storableMembers_iff.mp storable.2 _ (Assoc.mem_of_get?_eq_some found)

theorem wellFormed_valueErrand (asked : valueErrand verb request = .ok errand) : errand.WellFormed := by
  obtain ⟨read?, read, asked⟩ := bind_eq_ok.mp asked
  cases read? with
  | none => cases asked
  | some body =>
    obtain ⟨members, given, asked⟩ := bind_eq_ok.mp asked
    obtain ⟨trigger, named, asked⟩ := bind_eq_ok.mp asked
    obtain rfl := pure_eq_ok.mp asked
    have storable := storable_readBody read
    rw [bodyMembers_eq_ok given] at storable
    exact ⟨triggerIn_mem (by decide) named, storable_member storable⟩

theorem wellFormed_interaction (asked : interaction request = .ok errand) : errand.WellFormed := by
  obtain ⟨read?, -, asked⟩ := bind_eq_ok.mp asked
  cases read? with
  | none =>
    obtain rfl := pure_eq_ok.mp asked
    trivial
  | some body =>
    obtain ⟨members, -, asked⟩ := bind_eq_ok.mp asked
    obtain ⟨trigger, -, asked⟩ := bind_eq_ok.mp asked
    obtain rfl := pure_eq_ok.mp asked
    trivial

theorem wellFormed_endpoint {endpoint : Endpoint} {method : String}
    (mem : (method, .ok (.errand errand)) ∈ endpoint.methods request) : errand.WellFormed := by
  have value {verb : String} (asked : Route.errand <$> valueErrand verb request = .ok (.errand errand)) :
      errand.WellFormed := by
    obtain ⟨given, there, same⟩ := map_eq_ok.mp asked
    cases same
    exact wellFormed_valueErrand there
  have interacts (asked : Route.errand <$> interaction request = .ok (.errand errand)) :
      errand.WellFormed := by
    obtain ⟨given, there, same⟩ := map_eq_ok.mp asked
    cases same
    exact wellFormed_interaction there
  cases endpoint with
  | value verb =>
    obtain ⟨-, asked⟩ := Prod.mk.inj (List.mem_singleton.mp mem)
    exact value asked.symm
  | interactions =>
    obtain ⟨-, asked⟩ := Prod.mk.inj (List.mem_singleton.mp mem)
    exact interacts asked.symm
  | health | page => simp [Endpoint.methods] at mem
  | console | select | submit | copy =>
    simp only [Endpoint.methods, List.mem_cons, List.not_mem_nil, or_false, Prod.mk.injEq, Except.ok.injEq,
      Route.errand.injEq, reduceCtorEq, and_false] at mem
    obtain ⟨-, rfl⟩ := mem
    trivial

/-- **The errand that a request asks for is well-formed.** -/
theorem route_wellFormed (asked : route request = .ok (.errand errand)) : errand.WellFormed := by
  unfold route at asked
  split at asked
  · next endpoint _ =>
    cases found : endpoint.route request with
    | error refusal =>
      rw [found] at asked
      cases asked
    | ok given =>
      rw [found] at asked
      cases asked
      rw [Endpoint.route] at found
      cases listed : (endpoint.methods request).lookup request.method with
      | none =>
        rw [listed] at found
        cases found
      | some entry =>
        rw [listed, Option.getD_some] at found
        obtain ⟨before, after, same, -⟩ := List.lookup_eq_some_iff.mp listed
        have mem : (request.method, entry) ∈ endpoint.methods request :=
          same ▸ List.mem_append_right _ List.mem_cons_self
        exact wellFormed_endpoint (found ▸ mem)
  · cases asked

end VerbForms.Host
