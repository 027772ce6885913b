import VerbForms.Proofs.Registry.Calm
import VerbForms.Proofs.Registry.Handover
import VerbForms.Proofs.Registry.SingleBuild

/-!
# Visits under way

A visit is under way from its arrival until it gives a console back or fails. What it does is told apart
from what others do meanwhile by its ticket: others neither end it nor touch the console that it starts or
closes, and by its own events it touches nothing else as long as it is under way.
-/

namespace VerbForms.Registry

/-- The operation that an event belongs to. -/
def Event.ticket : Event → Ticket
  | .arrive ticket _ | .turn ticket | .cancel ticket | .made ticket _ | .keep ticket | .fail ticket
  | .giveUp ticket | .reset ticket _ | .clear ticket | .closed ticket => ticket

variable {r s : Registry} {v : Visit} {lock : LockId} {ticket : Ticket} {path : String}
variable {event : Event} {id : ConsoleId}

/-- The visit with a ticket has not ended. -/
def UnderWay (r : Registry) (ticket : Ticket) : Prop := ticket ∈ r.visits.map Visit.ticket

/-- The visit with a ticket ends without a console at an event: it gives up, or it has been cancelled and
leaves the queue at its turn. -/
def FailsAt (r : Registry) (ticket : Ticket) : Event → Prop
  | .giveUp other => other = ticket
  | .turn other => other = ticket ∧ (r.resume other).2.1 = .cancelled
  | _ => False

/-- The visit with a ticket starts a console, or closes it because its start has failed. -/
def Carries (r : Registry) (ticket : Ticket) (id : ConsoleId) : Prop :=
  ∃ v ∈ r.visits, v.ticket = ticket ∧ (v.stage = .building (some id) ∨ v.stage = .discarding id)

theorem SameCustody.underWay_iff (same : SameCustody r s) (ticket : Ticket) :
    s.UnderWay ticket ↔ r.UnderWay ticket := by
  rw [UnderWay, UnderWay, same.tickets]

theorem UnderWay.not_fresh (underWay : r.UnderWay ticket) : ¬ r.Fresh ticket := by
  rw [fresh_iff]
  exact fun fresh ↦ fresh (List.mem_append_left _ underWay)

theorem not_underWay_remove (r : Registry) (ticket : Ticket) : ¬ (r.remove ticket).UnderWay ticket := by
  intro left
  obtain ⟨v, hv, same⟩ := List.mem_map.mp left
  exact not_mem_remove r ticket v hv same

/-! ### Visits under way -/

/-- Only an arrival brings a visit. -/
theorem Handover.underWay (step : Handover r event s) (after : s.UnderWay ticket) :
    r.UnderWay ticket ∨ ∃ path, event = .arrive ticket path := by
  have fewer (other : Ticket) : (r.remove other).UnderWay ticket → r.UnderWay ticket :=
    fun left ↦ (List.filter_sublist.map Visit.ticket).subset left
  have staged {other : Ticket} {stage : Stage} :
      (r.setStage other stage).UnderWay ticket → r.UnderWay ticket := by
    rw [UnderWay, tickets_setStage]
    exact fun same ↦ same
  cases step with
  | joined =>
    rw [UnderWay, List.map_append] at after
    rcases List.mem_append.mp after with old | new
    · exact .inl old
    · cases List.mem_singleton.mp new
      exact .inr ⟨_, rfl⟩
  | left => exact .inl (fewer _ after)
  | foundLater => exact .inl (fewer _ after)
  | made => exact .inl (staged after)
  | @kept v console =>
    left
    have inserted := insert_visits r v.path console
    apply fewer v.ticket
    rw [UnderWay, remove, ← inserted]
    exact after
  | failed => exact .inl (staged after)
  | gaveUp => exact .inl (fewer _ after)
  | _ => exact .inl after

theorem Sound.underWay_of_perform (h : Sound r) (enabled : r.Enabled event)
    (after : (r.perform event).UnderWay ticket) :
    r.UnderWay ticket ∨ ∃ path, event = .arrive ticket path := by
  obtain ⟨s, step, same⟩ := h.handover enabled
  exact step.underWay ((same.underWay_iff ticket).mp after)

/-- An event ends no visit but the one that it belongs to. -/
theorem Handover.underWay_of_ne (step : Handover r event s) (present : r.UnderWay ticket)
    (other : ticket ≠ event.ticket) : s.UnderWay ticket := by
  have left {t : Registry} {gone : Ticket} (same : t.visits = r.visits) (ne : ticket ≠ gone) :
      (t.remove gone).UnderWay ticket := by
    obtain ⟨v, hv, rfl⟩ := List.mem_map.mp present
    exact List.mem_map_of_mem ((othersStay_remove t gone v ne).mpr (same ▸ hv))
  have staged (changed : Ticket) (stage : Stage) : (r.setStage changed stage).UnderWay ticket := by
    rw [UnderWay, tickets_setStage]
    exact present
  cases step with
  | joined => exact (List.map_append ▸ List.mem_append_left _ present :)
  | left => exact left rfl other
  | foundLater => exact left rfl other
  | made => exact staged _ _
  | @kept v console => exact left (insert_visits r v.path console) other
  | failed => exact staged _ _
  | gaveUp => exact left rfl other
  | _ => exact present

/-- A visit does not touch the cache by an event after which it is under way. -/
theorem Sound.cached_perform (h : Sound r) (enabled : r.Enabled event)
    (after : (r.perform event).UnderWay event.ticket) : (r.perform event).cached = r.cached := by
  obtain ⟨s, step, same⟩ := h.handover enabled
  rw [same.underWay_iff] at after
  rw [same.cached]
  cases step with
  | found => exact absurd enabled after.not_fresh
  | @foundLater v console =>
    exact absurd after (not_underWay_remove (r.touch v.path console) v.ticket)
  | @kept v console => exact absurd after (not_underWay_remove (r.insert v.path console).1 v.ticket)
  | taken => exact absurd enabled (UnderWay.not_fresh (r := r) after)
  | cleared => exact absurd enabled (UnderWay.not_fresh (r := r) after)
  | _ => rfl

/-! ### Failures -/

/-- A visit that has been cancelled by its turn is one that was cancelled in the queue. -/
theorem exists_of_resume_cancelled (cancelled : (r.resume ticket).2.1 = .cancelled) :
    ∃ v, r.visit? ticket = some v ∧ (v.stage = .withdrawn ∨ v.stage = .dismissed) := by
  rw [resume] at cancelled
  split at cancelled
  · cases cancelled
  · next v visit =>
    split at cancelled
    · split at cancelled
      · cases cancelled
      · cases cancelled
    · next stage => exact ⟨v, visit, .inl stage⟩
    · next stage => exact ⟨v, visit, .inr stage⟩
    · cases cancelled

/-- How a visit fails: it gives up while it holds the lock, or it leaves the queue. -/
inductive Failure (r : Registry) (v : Visit) : Event → Registry → Prop where
  | gaveUp : v.stage.canGiveUp = true → Failure r v (.giveUp v.ticket) (r.leave v).1
  | quit : v.stage.holds = false → Failure r v (.turn v.ticket) (r.quit v).1

theorem Sound.failure (h : Sound r) (enabled : r.Enabled event) (fails : r.FailsAt ticket event) :
    ∃ v ∈ r.visits, v.ticket = ticket ∧ Failure r v event (r.perform event) := by
  cases event with
  | giveUp other =>
    obtain rfl := fails
    obtain ⟨v, hv, rfl, visit, ends⟩ := h.exists_of_stage? enabled
    refine ⟨v, hv, rfl, ?_⟩
    rw [Registry.perform, Registry.giveUp, visit]
    exact .gaveUp ends
  | turn other =>
    obtain ⟨rfl, cancelled⟩ := fails
    obtain ⟨v, visit, stage⟩ := exists_of_resume_cancelled cancelled
    obtain ⟨hv, rfl⟩ := h.visit?_eq_some_iff.mp visit
    refine ⟨v, hv, rfl, ?_⟩
    rw [Registry.perform, resume_quits visit stage]
    refine .quit ?_
    rcases stage with stage | stage <;> rw [stage] <;> rfl
  | _ => cases fails

theorem Failure.sameCustody (failure : Failure r v event s) (h : Sound r) :
    SameCustody (r.remove v.ticket) s := by
  cases failure with
  | gaveUp => exact sameCustody_leave h.tickets v
  | quit => exact sameCustody_quit h.tickets v

/-- Waking gives nobody a lock. -/
theorem held_wakeFirst_of_free (free : r.held lock = false) (other : LockId) :
    (r.wakeFirst other).1.held lock = false := by
  rcases wakeFirst_eq r other with same | ⟨first, -, -, woken⟩
  · rwa [same]
  · rw [woken, held, List.any_eq_false]
    intro w hw
    obtain ⟨u, hu, rfl⟩ := List.mem_map.mp hw
    split
    · simp [Stage.holds]
    · exact List.any_eq_false.mp free u hu

theorem held_tidy (r : Registry) (key : String) (other : LockId) :
    (r.tidy key other).held lock = r.held lock := by
  obtain ⟨locks, same⟩ := r.tidy_with key other
  rw [same]
  rfl

/-- A visit that fails while it holds its lock leaves it to nobody. -/
theorem Failure.held (failure : Failure r v event s) (h : Sound r) (hv : v ∈ r.visits)
    (holds : v.stage.holds = true) : s.held v.lock = false := by
  cases failure with
  | gaveUp =>
    show (((r.remove v.ticket).wakeFirst v.lock).1.tidy v.path v.lock).held v.lock = false
    rw [held_tidy]
    exact held_wakeFirst_of_free (h.held_remove hv (Stage.not_isPassive_of_holds holds)) v.lock
  | quit queued =>
    rw [holds] at queued
    cases queued

/-! ### The console of a visit -/

theorem mem_wakeFirst_of_holds (tickets : (r.visits.map Visit.ticket).Nodup) (hv : v ∈ r.visits)
    (holds : v.stage.holds = true) (lock : LockId) : v ∈ (r.wakeFirst lock).1.visits := by
  rcases wakeFirst_eq r lock with same | ⟨first, queued, waits, woken⟩
  · rwa [same]
  · rw [woken]
    refine (othersStay_setStage r first.ticket .woken v fun namesake ↦ ?_).mpr hv
    have same := List.inj_on_of_nodup_map tickets hv (List.mem_of_mem_filter queued) namesake
    rw [same, waits] at holds
    cases holds

theorem mem_tidy (hv : v ∈ r.visits) (key : String) (lock : LockId) :
    v ∈ (r.tidy key lock).visits := by
  obtain ⟨locks, same⟩ := r.tidy_with key lock
  rwa [same]

/-- A visit that holds its lock stays as it is when another one leaves. -/
theorem mem_leave_of_holds (tickets : (r.visits.map Visit.ticket).Nodup) (hv : v ∈ r.visits)
    (holds : v.stage.holds = true) {u : Visit} (other : v.ticket ≠ u.ticket) :
    v ∈ (r.leave u).1.visits :=
  mem_tidy (mem_wakeFirst_of_holds (tickets_remove tickets u.ticket)
    ((othersStay_remove r u.ticket v other).mpr hv) holds u.lock) u.path u.lock

theorem mem_quit_of_holds (tickets : (r.visits.map Visit.ticket).Nodup) (hv : v ∈ r.visits)
    (holds : v.stage.holds = true) {u : Visit} (other : v.ticket ≠ u.ticket) :
    v ∈ (r.quit u).1.visits := by
  cases held : (r.remove u.ticket).held u.lock with
  | true =>
    rw [quit_of_held held]
    exact mem_tidy ((othersStay_remove r u.ticket v other).mpr hv) u.path u.lock
  | false =>
    rw [quit_of_free held]
    exact mem_leave_of_holds tickets hv holds other

/-- A visit that holds its lock stays as it is when another one takes its turn. -/
theorem Sound.mem_resume_of_holds (h : Sound r) {result : Registry × TurnEnd × Option Ticket}
    (resumes : r.Resumes ticket result) (hv : v ∈ r.visits) (holds : v.stage.holds = true)
    (other : v.ticket ≠ ticket) : v ∈ result.1.visits := by
  cases resumes with
  | @found u console => exact mem_leave_of_holds (h.touch u.path console).tickets hv holds other
  | builds => exact (othersStay_setStage r _ _ v other).mpr hv
  | quits => exact mem_quit_of_holds h.tickets hv holds other

/-- A visit that holds its lock stays as it is whatever others do. -/
theorem Sound.mem_perform_of_holds (h : Sound r) (enabled : r.Enabled event) (hv : v ∈ r.visits)
    (holds : v.stage.holds = true) (other : v.ticket ≠ event.ticket) :
    v ∈ (r.perform event).visits := by
  have staged (stage : Stage) : v ∈ (r.setStage event.ticket stage).visits :=
    (othersStay_setStage r event.ticket stage v other).mpr hv
  cases event with
  | arrive ticket path =>
    rw [Registry.perform, Registry.arrive]
    split
    · exact hv
    · have table := lockFor_visits r path
      dsimp only
      split
      · exact List.mem_append_left _ (table ▸ hv)
      · exact List.mem_append_left _ (table ▸ hv)
  | turn ticket => exact h.mem_resume_of_holds (h.resumes enabled) hv holds other
  | cancel ticket =>
    rw [Registry.perform, Registry.cancel]
    split
    · exact staged _
    · exact staged _
    · exact hv
  | made ticket console => exact staged _
  | keep ticket =>
    obtain ⟨u, hu, rfl, visit, starts⟩ := h.exists_of_stage? enabled
    obtain ⟨console, stage⟩ := Stage.eq_of_starts starts
    rw [Registry.perform, stage?_of_mem h hu, stage]
    dsimp only
    rw [keep_eq visit]
    have inserted := insert_visits r u.path console
    exact mem_leave_of_holds (h.insert u.path console).tickets (inserted ▸ hv) holds other
  | fail ticket =>
    rw [Registry.perform, Registry.fail]
    split
    · exact staged _
    · exact hv
  | giveUp ticket =>
    obtain ⟨u, hu, rfl, visit, -⟩ := h.exists_of_stage? enabled
    rw [Registry.perform, Registry.giveUp, visit]
    exact mem_leave_of_holds h.tickets hv holds other
  | reset ticket path =>
    rw [Registry.perform, reset_eq]
    exact (forgetLockOf_visits { r with cached := Assoc.erase r.cached path } path).symm ▸ hv
  | clear ticket => exact hv
  | closed ticket => exact hv

/-- A visit that has a console is not in the queue, and the factory is not at work for it. -/
theorem Carries.unable (carries : r.Carries ticket id) (h : Sound r) {test : Stage → Bool}
    (starting : test (.building (some id)) = false) (closing : test (.discarding id) = false) :
    ¬ (r.stage? ticket).any test = true := by
  obtain ⟨v, hv, rfl, stage⟩ := carries
  rw [stage?_of_mem h hv, Option.any_some]
  rcases stage with stage | stage
  · rw [stage, starting]
    exact Bool.false_ne_true
  · rw [stage, closing]
    exact Bool.false_ne_true

theorem Sound.not_underWay_keep (h : Sound r) (enabled : r.Enabled (.keep ticket)) :
    ¬ (r.perform (.keep ticket)).UnderWay ticket := by
  obtain ⟨s, step, same⟩ := h.handover enabled
  rw [same.underWay_iff]
  cases step with
  | @kept v console => exact not_underWay_remove (r.insert v.path console).1 v.ticket

theorem Sound.not_underWay_of_failsAt (h : Sound r) (enabled : r.Enabled event)
    (fails : r.FailsAt ticket event) : ¬ (r.perform event).UnderWay ticket := by
  obtain ⟨v, -, rfl, failure⟩ := h.failure enabled fails
  rw [(failure.sameCustody h).underWay_iff]
  exact not_underWay_remove r v.ticket

/-- What a visit does with its console, as long as it is under way. -/
theorem Sound.carries_own (h : Sound r) (enabled : r.Enabled event)
    (carries : r.Carries event.ticket id) (after : (r.perform event).UnderWay event.ticket) :
    (r.perform event).Carries event.ticket id := by
  have present : r.UnderWay event.ticket := by
    obtain ⟨v, hv, same, -⟩ := carries
    exact same ▸ List.mem_map_of_mem hv
  cases event with
  | arrive => exact absurd enabled present.not_fresh
  | turn => exact absurd enabled (carries.unable h rfl rfl)
  | cancel => exact absurd enabled (carries.unable h rfl rfl)
  | made => exact absurd enabled (carries.unable h rfl rfl)
  | keep => exact absurd after (h.not_underWay_keep enabled)
  | fail ticket =>
    obtain ⟨v, hv, rfl, visit, starts⟩ := h.exists_of_stage? enabled
    obtain ⟨u, hu, same, stage⟩ := carries
    obtain rfl := List.inj_on_of_nodup_map h.tickets hu hv same
    rcases stage with stage | stage
    · refine ⟨{ u with stage := .discarding id }, ?_, rfl, .inr rfl⟩
      rw [Registry.perform, Registry.fail, visit, Option.map_some, stage]
      exact mem_setStage hu (.discarding id)
    · rw [stage] at starts
      cases starts
  | giveUp => exact absurd after (h.not_underWay_of_failsAt enabled rfl)
  | reset => exact absurd enabled present.not_fresh
  | clear => exact absurd enabled present.not_fresh
  | closed => exact carries

/-- A visit keeps its console for itself as long as it is under way. -/
theorem Sound.carries_perform (h : Sound r) (enabled : r.Enabled event)
    (carries : r.Carries ticket id) (after : (r.perform event).UnderWay ticket) :
    (r.perform event).Carries ticket id := by
  by_cases own : ticket = event.ticket
  · subst own
    exact h.carries_own enabled carries after
  · obtain ⟨v, hv, rfl, stage⟩ := carries
    have holds : v.stage.holds = true := by rcases stage with stage | stage <;> rw [stage] <;> rfl
    exact ⟨v, h.mem_perform_of_holds enabled hv holds own, rfl, stage⟩

/-- A visit that fails has closed its console. -/
theorem Carries.released (carries : r.Carries ticket id) (h : Sound r) (enabled : r.Enabled event)
    (fails : r.FailsAt ticket event) : id ∈ r.released event := by
  cases event with
  | giveUp other =>
    obtain rfl := fails
    obtain ⟨v, hv, rfl, visit, ends⟩ := h.exists_of_stage? enabled
    obtain ⟨u, hu, same, stage⟩ := carries
    obtain rfl := List.inj_on_of_nodup_map h.tickets hu hv same
    rcases stage with stage | stage
    · rw [stage] at ends
      cases ends
    · rw [Registry.released, stage?_of_mem h hu, stage]
      exact List.mem_singleton_self id
  | turn other =>
    obtain ⟨rfl, -⟩ := fails
    exact absurd enabled (carries.unable h rfl rfl)
  | _ => cases fails

/-- The console of a visit is in custody, but not in the cache. -/
theorem Carries.uncached (carries : r.Carries ticket id) (distinct : r.custody.Nodup) :
    id ∉ r.cachedConsoles := by
  obtain ⟨v, hv, -, stage⟩ := carries
  rw [custody, List.append_assoc] at distinct
  refine fun cached ↦ List.disjoint_of_nodup_append distinct cached (List.mem_append.mpr ?_)
  rcases stage with stage | stage
  · exact .inl (mem_starting.mpr ⟨v, hv, by rw [stage]; rfl⟩)
  · exact .inr (mem_toClose.mpr (.inl ⟨v, hv, stage⟩))

end VerbForms.Registry
