import VerbForms.Proofs.Registry.Custody

/-!
# Hand-overs

Consoles come into the custody of a registry when the factory has made them and leave it when they have
been closed; all other events only hand them over. `Handover` says once what each event does, locks and
queues apart, and what it keeps is read off it: no console is lost, what has to be closed stays so until
it has been closed, and the cache keeps within its bound.
-/

namespace VerbForms.Registry

variable {r s : Registry} {v : Visit} {ticket : Ticket} {path : String} {console : ConsoleId}

/-- The consoles that come into custody with an event. -/
def Event.received : Event → List ConsoleId
  | .made _ console => [console]
  | _ => []

/-- The consoles that have been closed with an event. -/
def released (r : Registry) : Event → List ConsoleId
  | .giveUp ticket => ((r.stage? ticket).bind Stage.discarded?).toList
  | .closed ticket => ((r.closings.find? (·.ticket == ticket)).bind (·.left.head?)).toList
  | _ => []

/-! ### What an event does -/

theorem Stage.consoles_of_produces {stage : Stage} (h : stage.produces = true) :
    stage.consoles = [] := by
  cases stage with
  | building made => cases made <;> first | rfl | cases h
  | _ => cases h

theorem Stage.eq_of_starts {stage : Stage} (h : stage.starts = true) :
    ∃ console, stage = .building (some console) := by
  cases stage with
  | building made =>
    cases made with
    | none => cases h
    | some console => exact ⟨console, rfl⟩
  | _ => cases h

theorem Stage.started?_of_canGiveUp {stage : Stage} (h : stage.canGiveUp = true) :
    stage.started? = none := by
  cases stage with
  | building made => cases made <;> first | rfl | cases h
  | _ => rfl

/-- What an event does to the consoles of a registry, apart from locks and queues. -/
inductive Handover (r : Registry) : Event → Registry → Prop where
  /-- A newcomer finds a console. -/
  | found {ticket : Ticket} {path : String} {console : ConsoleId} :
      r.find? path = some console → Handover r (.arrive ticket path) (r.touch path console)
  /-- A newcomer has none yet. -/
  | joined {ticket : Ticket} {path : String} {lock : LockId} {stage : Stage} :
      stage.consoles = [] →
      Handover r (.arrive ticket path) { r with visits := r.visits ++ [⟨ticket, path, lock, stage⟩] }
  /-- A visit goes on without a console. -/
  | stayed {ticket : Ticket} : Handover r (.turn ticket) r
  /-- A visit that has been cancelled goes. -/
  | left {v : Visit} : v ∈ r.visits → v.stage.consoles = [] →
      Handover r (.turn v.ticket) (r.remove v.ticket)
  /-- A visit goes with the console that it has found at its turn. -/
  | foundLater {v : Visit} {console : ConsoleId} : v ∈ r.visits → v.stage.consoles = [] →
      r.find? v.path = some console →
      Handover r (.turn v.ticket) ((r.touch v.path console).remove v.ticket)
  | cancelled {ticket : Ticket} : Handover r (.cancel ticket) r
  /-- A visit gets the console that it is to start. -/
  | made {v : Visit} {console : ConsoleId} : v ∈ r.visits → v.stage.consoles = [] →
      Handover r (.made v.ticket console) (r.setStage v.ticket (.building (some console)))
  /-- The console of a visit goes into the cache. -/
  | kept {v : Visit} {console : ConsoleId} : v ∈ r.visits → v.stage = .building (some console) →
      Handover r (.keep v.ticket)
        (((r.insert v.path console).1.remove v.ticket).close v.ticket (r.insert v.path console).2)
  /-- A visit has to close its console. -/
  | failed {v : Visit} {console : ConsoleId} : v ∈ r.visits → v.stage = .building (some console) →
      Handover r (.fail v.ticket) (r.setStage v.ticket (.discarding console))
  | gaveUp {v : Visit} : v ∈ r.visits → v.stage.started? = none →
      Handover r (.giveUp v.ticket) (r.remove v.ticket)
  /-- A console is taken out of the cache and has to be closed. -/
  | taken {ticket : Ticket} {path : String} : Handover r (.reset ticket path)
      ({ r with cached := Assoc.erase r.cached path }.close ticket (r.find? path).toList)
  | cleared {ticket : Ticket} :
      Handover r (.clear ticket) ({ r with cached := [] }.close ticket r.cachedConsoles)
  | closed {ticket : Ticket} : Handover r (.closed ticket) (r.closed ticket)

/-- A newcomer finds a console or joins the visits without one. -/
theorem handover_arrive (r : Registry) (ticket : Ticket) (path : String) :
    ∃ s, Handover r (.arrive ticket path) s ∧ SameCustody s (r.arrive ticket path).1 := by
  have joined (v : Visit) : SameCustody { r with visits := r.visits ++ [v] }
      { (r.lockFor path).1 with visits := (r.lockFor path).1.visits ++ [v] } := by
    rw [lockFor]
    split
    · exact SameCustody.refl _
    · exact ⟨rfl, rfl, rfl, rfl, rfl, rfl⟩
  rw [arrive]
  split
  · next console found => exact ⟨_, .found found, SameCustody.refl _⟩
  · dsimp only
    split <;> exact ⟨_, .joined rfl, joined _⟩

/-- A queued visit has no console; at its turn it stays, goes, or goes with the one that it finds. -/
theorem Sound.handover_turn (h : Sound r) {result : Registry × TurnEnd × Option Ticket}
    (resumes : r.Resumes ticket result) :
    ∃ s, Handover r (.turn ticket) s ∧ SameCustody s result.1 := by
  cases resumes with
  | @found v console mem woken known =>
    exact ⟨_, .foundLater mem (by rw [woken]; rfl) known, sameCustody_leave (h.touch v.path console).tickets v⟩
  | builds mem woken =>
    exact ⟨_, .stayed, sameCustody_setStage h.tickets mem (by rw [woken]; rfl) (by rw [woken]; rfl)⟩
  | @quits v mem gone =>
    have idle : v.stage.consoles = [] := by rcases gone with gone | gone <;> rw [gone] <;> rfl
    exact ⟨_, .left mem idle, sameCustody_quit h.tickets v⟩

theorem Sound.sameCustody_cancel (h : Sound r)
    (enabled : (r.stage? ticket).any Stage.canCancel = true) :
    SameCustody r (r.cancel ticket).1 := by
  obtain ⟨v, hv, rfl, hs, ht⟩ := h.exists_of_stage? enabled
  rw [Registry.cancel, hs, Option.map_some]
  cases stage : v.stage with
  | waiting | woken =>
    exact sameCustody_setStage h.tickets hv (by rw [stage]; rfl) (by rw [stage]; rfl)
  | withdrawn | dismissed | building | discarding => rw [stage] at ht; cases ht

/-- **Every event is a hand-over**, but for what it does to locks and queues. -/
theorem Sound.handover (h : Sound r) {event : Event} (enabled : r.Enabled event) :
    ∃ s, Handover r event s ∧ SameCustody s (r.perform event) := by
  cases event with
  | arrive ticket path => exact handover_arrive r ticket path
  | turn ticket => exact h.handover_turn (h.resumes enabled)
  | cancel ticket => exact ⟨r, .cancelled, h.sameCustody_cancel enabled⟩
  | made ticket console =>
    obtain ⟨v, hv, rfl, -, ht⟩ := h.exists_of_stage? enabled
    exact ⟨_, .made hv (Stage.consoles_of_produces ht), SameCustody.refl _⟩
  | keep ticket =>
    obtain ⟨v, hv, rfl, hs, ht⟩ := h.exists_of_stage? enabled
    obtain ⟨console, stage⟩ := Stage.eq_of_starts ht
    have left := sameCustody_leave (h.insert v.path console).tickets v
    rw [Registry.perform, stage?, hs, Option.map_some, stage]
    dsimp only
    rw [keep_eq hs]
    exact ⟨_, .kept hv stage, left.close v.ticket _⟩
  | fail ticket =>
    obtain ⟨v, hv, rfl, hs, ht⟩ := h.exists_of_stage? enabled
    obtain ⟨console, stage⟩ := Stage.eq_of_starts ht
    rw [Registry.perform, Registry.fail, hs, Option.map_some, stage]
    exact ⟨_, .failed hv stage, SameCustody.refl _⟩
  | giveUp ticket =>
    obtain ⟨v, hv, rfl, hs, ht⟩ := h.exists_of_stage? enabled
    rw [Registry.perform, Registry.giveUp, hs]
    exact ⟨_, .gaveUp hv (Stage.started?_of_canGiveUp ht), sameCustody_leave h.tickets v⟩
  | reset ticket path =>
    rw [Registry.perform, reset_eq]
    exact ⟨_, .taken, (sameCustody_forgetLockOf _ path).close ticket _⟩
  | clear ticket =>
    rw [Registry.perform, clear_eq]
    have cleared : SameCustody { r with cached := [] } { r with cached := [], locks := [] } :=
      ⟨rfl, rfl, rfl, rfl, rfl, rfl⟩
    exact ⟨_, .cleared, cleared.close ticket _⟩
  | closed ticket => exact ⟨_, .closed, SameCustody.refl _⟩

/-! ### Conservation -/

theorem custody_newcomer (r : Registry) (v : Visit) (idle : v.stage.consoles = []) :
    ({ r with visits := r.visits ++ [v] } : Registry).custody = r.custody := by
  have started : v.stage.started? = none := by
    cases hs : v.stage.started? <;> simp_all [Stage.consoles]
  have discarded : v.stage.discarded? = none := by
    cases hd : v.stage.discarded? <;> simp_all [Stage.consoles]
  simp [custody, starting, toClose, cachedConsoles, started, discarded]

/-- The use of a cached console changes the order of the cache only. -/
theorem perm_custody_touch (found : r.find? path = some console) :
    (r.touch path console).custody.Perm r.custody := by
  have touched := perm_cached_touch r path console
  rw [found, Option.toList, List.singleton_append, List.perm_cons] at touched
  exact (touched.append_right _).append_right _

/-- A visit without a console goes. -/
theorem custody_remove (distinct : (r.visits.map Visit.ticket).Nodup) (hv : v ∈ r.visits)
    (idle : v.stage.consoles = []) : (r.remove v.ticket).custody.Perm r.custody := by
  have split := perm_custody_remove distinct hv
  rw [idle, List.nil_append] at split
  exact split.symm

theorem mem_starting : console ∈ r.starting ↔ ∃ v ∈ r.visits, v.stage.started? = some console := by
  simp [starting]

/-- What a visit starts is not cached. -/
theorem find?_ne_of_starts (distinct : r.custody.Nodup) (hv : v ∈ r.visits)
    (stage : v.stage = .building (some console)) (path : String) : r.find? path ≠ some console := by
  intro found
  have cached : console ∈ r.cachedConsoles :=
    List.mem_map.mpr ⟨(path, console), Assoc.mem_of_get?_eq_some found, rfl⟩
  have started : console ∈ r.starting := mem_starting.mpr ⟨v, hv, by rw [stage]; rfl⟩
  rw [custody, List.nodup_append] at distinct
  exact List.disjoint_of_nodup_append distinct.1 cached started

/-- A build that has succeeded hands its console to the cache, and those that have to go are to be
closed. -/
theorem perm_custody_keep (tickets : (r.visits.map Visit.ticket).Nodup) (distinct : r.custody.Nodup)
    (hv : v ∈ r.visits) (stage : v.stage = .building (some console)) :
    (((r.insert v.path console).1.remove v.ticket).close v.ticket
      (r.insert v.path console).2).custody.Perm r.custody := by
  have inserted := sameCustody_insert r v.path console
  have visits := insert_visits r v.path console
  have kept := perm_custody_close ((r.insert v.path console).1.remove v.ticket) v.ticket
    (r.insert v.path console).2
  have removed := perm_custody_remove (visits ▸ tickets) (visits.symm ▸ hv)
  have cached := perm_cached_insert (find?_ne_of_starts distinct hv stage v.path)
  rw [List.perm_iff_count] at kept cached removed ⊢
  intro id
  have hk := kept id
  have hc := cached id
  have hr := removed id
  have hi := congrArg (List.count id) inserted.custody
  rw [stage] at hr
  simp only [custody, starting, toClose, cachedConsoles, Stage.consoles, Stage.started?,
    Stage.discarded?, Option.toList, List.count_append, List.count_cons, List.count_nil]
    at hk hc hr hi ⊢
  omega

/-- A visit goes on with the consoles that it has. -/
theorem custody_setStage (tickets : (r.visits.map Visit.ticket).Nodup) (hv : v ∈ r.visits)
    {stage : Stage} (same : stage.consoles = v.stage.consoles) :
    (r.setStage v.ticket stage).custody.Perm r.custody := by
  have after := perm_custody_setStage tickets hv stage
  rw [same] at after
  exact after.trans (perm_custody_remove tickets hv).symm

/-- A visit that ends without a console has closed the one that it had. -/
theorem custody_giveUp (tickets : (r.visits.map Visit.ticket).Nodup) (hv : v ∈ r.visits)
    (unstarted : v.stage.started? = none) :
    (v.stage.discarded?.toList ++ (r.remove v.ticket).custody).Perm r.custody := by
  have removed := perm_custody_remove tickets hv
  rw [Stage.consoles, unstarted] at removed
  exact removed.symm

theorem perm_custody_taken (r : Registry) (ticket : Ticket) (path : String) :
    ({ r with cached := Assoc.erase r.cached path }.close ticket
      (r.find? path).toList).custody.Perm r.custody := by
  have taken := Assoc.perm_values_erase r.cached path
  have closing := perm_custody_close { r with cached := Assoc.erase r.cached path } ticket
    (r.find? path).toList
  rw [List.perm_iff_count] at taken closing ⊢
  intro id
  have ht := taken id
  have hc := closing id
  simp only [custody, starting, toClose, cachedConsoles, find?, List.count_append] at ht hc ⊢
  omega

/-- Custody as the cached consoles and all others. -/
theorem custody_uncached (r : Registry) :
    r.custody = r.cachedConsoles ++ ({ r with cached := [] } : Registry).custody :=
  List.append_assoc _ _ _

theorem Ticketed.custody_closed (ticketed : Ticketed r) (ticket : Ticket) :
    (r.released (.closed ticket) ++ (r.closed ticket).custody).Perm r.custody := by
  have left := perm_left_closed (List.Nodup.of_append_right ticketed.tickets) ticket
  rw [List.perm_iff_count] at left ⊢
  intro id
  have hl := left id
  rw [← closings_closed] at hl
  simp only [released, custody, starting, toClose, cachedConsoles, closed, List.count_append] at hl ⊢
  omega

/-- No hand-over loses a console. -/
theorem Handover.custody {event : Event} (step : Handover r event s) (h : Sound r)
    (ticketed : Ticketed r) (distinct : r.custody.Nodup) :
    (r.released event ++ s.custody).Perm (event.received ++ r.custody) := by
  cases step with
  | found found => exact perm_custody_touch found
  | joined idle => exact List.Perm.of_eq (custody_newcomer r _ idle)
  | stayed => exact List.Perm.refl _
  | left hv idle => exact custody_remove h.tickets hv idle
  | foundLater hv idle found =>
    exact (custody_remove (h.touch _ _).tickets hv idle).trans (perm_custody_touch found)
  | cancelled => exact List.Perm.refl _
  | made hv idle =>
    exact (perm_custody_setStage h.tickets hv _).trans ((custody_remove h.tickets hv idle).cons _)
  | kept hv stage => exact perm_custody_keep h.tickets distinct hv stage
  | failed hv stage => exact custody_setStage h.tickets hv (by rw [stage]; rfl)
  | @gaveUp v hv unstarted =>
    rw [released, stage?, h.visit?_eq_some_iff.mpr ⟨hv, rfl⟩]
    exact custody_giveUp h.tickets hv unstarted
  | taken => exact perm_custody_taken r _ _
  | cleared =>
    rw [custody_uncached r]
    exact perm_custody_close { r with cached := [] } _ r.cachedConsoles
  | closed => exact ticketed.custody_closed _

/-- **No event loses a console.** Consoles come into custody when they have been made and leave it when
they have been closed. -/
theorem Sound.custody_perform (h : Sound r) (ticketed : Ticketed r) (distinct : r.custody.Nodup)
    {event : Event} (enabled : r.Enabled event) :
    (r.released event ++ (r.perform event).custody).Perm (event.received ++ r.custody) := by
  obtain ⟨s, step, same⟩ := h.handover enabled
  rw [same.custody]
  exact step.custody h ticketed distinct

/-! ### Tickets -/

theorem fresh_iff : r.Fresh ticket ↔
    ticket ∉ r.visits.map Visit.ticket ++ r.closings.map Closing.ticket := by
  simp [Fresh, eq_comm]

theorem Ticketed.remove (ticketed : Ticketed r) (ticket : Ticket) : Ticketed (r.remove ticket) :=
  ⟨ticketed.tickets.sublist ((List.filter_sublist.map Visit.ticket).append_right _), ticketed.left⟩

/-- A visit that has gone gives its ticket back. -/
theorem Ticketed.fresh_remove (ticketed : Ticketed r) (hv : v ∈ r.visits) :
    (r.remove v.ticket).Fresh v.ticket := by
  constructor
  · intro u hu
    simpa using (List.mem_filter.mp hu).2
  · intro c hc same
    exact List.disjoint_of_nodup_append ticketed.tickets (List.mem_map_of_mem hv)
      (same ▸ List.mem_map_of_mem hc)

theorem Ticketed.close (ticketed : Ticketed r) (fresh : r.Fresh ticket) (stale : List ConsoleId) :
    Ticketed (r.close ticket stale) := by
  rw [Registry.close]
  split
  · exact ticketed
  · next some =>
    constructor
    · rw [List.map_append, ← List.append_assoc]
      apply ticketed.tickets.append (List.nodup_singleton ticket)
      intro other known same
      exact fresh_iff.mp fresh (List.mem_singleton.mp same ▸ known)
    · intro c hc
      rcases List.mem_append.mp hc with hc | hc
      · exact ticketed.left c hc
      · rw [List.mem_singleton.mp hc]
        exact fun none ↦ some (List.isEmpty_iff.mpr none)

theorem Ticketed.newcomer (ticketed : Ticketed r) (fresh : r.Fresh v.ticket) :
    Ticketed { r with visits := r.visits ++ [v] } := by
  refine ⟨?_, ticketed.left⟩
  have moved : ((r.visits ++ [v]).map Visit.ticket ++ r.closings.map Closing.ticket).Perm
      (v.ticket :: (r.visits.map Visit.ticket ++ r.closings.map Closing.ticket)) := by
    simp
  rw [moved.nodup_iff, List.nodup_cons]
  exact ⟨fresh_iff.mp fresh, ticketed.tickets⟩

theorem Closing.ticket_next? {c d : Closing} (next : c.next? = some d) :
    d.ticket = c.ticket ∧ d.left ≠ [] := by
  rw [next?] at next
  split at next
  · cases next
    exact ⟨rfl, List.cons_ne_nil _ _⟩
  · cases next

theorem Ticketed.closed (ticketed : Ticketed r) (ticket : Ticket) : Ticketed (r.closed ticket) := by
  constructor
  · apply ticketed.tickets.sublist (List.Sublist.append_left _ _)
    rw [closings_closed]
    generalize r.closings = closings
    induction closings with
    | nil => exact List.Sublist.slnil
    | cons c rest ih =>
      rw [List.filterMap_cons]
      split
      · exact ih.cons c.ticket
      · next d next =>
        have same : d.ticket = c.ticket := by
          split at next
          · exact (Closing.ticket_next? next).1
          · exact congrArg Closing.ticket (Option.some.inj next).symm
        rw [List.map_cons, List.map_cons, same]
        exact ih.cons_cons c.ticket
  · intro d hd
    rw [closings_closed, List.mem_filterMap] at hd
    obtain ⟨c, hc, next⟩ := hd
    split at next
    · exact (Closing.ticket_next? next).2
    · exact Option.some.inj next ▸ ticketed.left c hc

theorem Ticketed.with_cached (ticketed : Ticketed r) (cached : List (String × ConsoleId)) :
    Ticketed { r with cached } := ⟨ticketed.tickets, ticketed.left⟩

theorem Ticketed.setStage (ticketed : Ticketed r) (ticket : Ticket) (stage : Stage) :
    Ticketed (r.setStage ticket stage) := by
  refine ⟨?_, ticketed.left⟩
  rw [tickets_setStage]
  exact ticketed.tickets

theorem Handover.ticketed {event : Event} (step : Handover r event s) (enabled : r.Enabled event)
    (ticketed : Ticketed r) : Ticketed s := by
  cases step with
  | found => exact ticketed.with_cached _
  | joined => exact ticketed.newcomer enabled
  | stayed => exact ticketed
  | left => exact ticketed.remove _
  | foundLater => exact (ticketed.with_cached _).remove _
  | cancelled => exact ticketed
  | made => exact ticketed.setStage _ _
  | @kept v console hv =>
    have inserted : Ticketed (r.insert v.path console).1 :=
      (sameCustody_insert r v.path console).ticketed (ticketed.with_cached _)
    have visits := insert_visits r v.path console
    exact (inserted.remove v.ticket).close (inserted.fresh_remove (visits.symm ▸ hv)) _
  | failed => exact ticketed.setStage _ _
  | gaveUp => exact ticketed.remove _
  | @taken _ path => exact (ticketed.with_cached (Assoc.erase r.cached path)).close enabled _
  | cleared => exact (ticketed.with_cached []).close enabled _
  | closed => exact ticketed.closed _

/-- Every event keeps tickets apart. -/
theorem Ticketed.perform (ticketed : Ticketed r) (h : Sound r) {event : Event}
    (enabled : r.Enabled event) : Ticketed (r.perform event) := by
  obtain ⟨s, step, same⟩ := h.handover enabled
  exact same.ticketed (step.ticketed enabled ticketed)

/-! ### Room -/

/-- The cache keeps within the bound that the registry was made with. -/
structure Roomy (bound : Nat) (r : Registry) : Prop where
  bound_eq : r.bound = bound
  length_le : r.cached.length ≤ bound

variable {bound : Nat}

theorem SameCustody.roomy (h : SameCustody r s) (room : Roomy bound r) : Roomy bound s :=
  ⟨h.bound.trans room.bound_eq, h.cached ▸ room.length_le⟩

theorem Roomy.touch (room : Roomy bound r) (found : r.find? path = some console) :
    Roomy bound (r.touch path console) := by
  have touched := (perm_cached_touch r path console).length_eq
  have room_le := room.length_le
  rw [found] at touched
  simp only [cachedConsoles, Option.toList, List.length_append, List.length_cons, List.length_nil,
    List.length_map] at touched
  exact ⟨room.bound_eq, by omega⟩

theorem Handover.roomy {event : Event} (step : Handover r event s) (room : Roomy bound r) :
    Roomy bound s := by
  cases step with
  | found found => exact room.touch found
  | foundLater _ _ found => exact ⟨(room.touch found).bound_eq, (room.touch found).length_le⟩
  | @kept v console =>
    have inserted := (sameCustody_insert r v.path console).bound
    have fits := length_insert_le r v.path console
    exact ⟨inserted.trans room.bound_eq, room.bound_eq ▸ fits⟩
  | @taken _ path =>
    have fewer := (Assoc.erase_sublist r.cached path).length_le
    exact ⟨room.bound_eq, Nat.le_trans fewer room.length_le⟩
  | cleared => exact ⟨room.bound_eq, Nat.zero_le bound⟩
  | _ => exact ⟨room.bound_eq, room.length_le⟩

theorem Roomy.perform (room : Roomy bound r) (h : Sound r) {event : Event}
    (enabled : r.Enabled event) : Roomy bound (r.perform event) := by
  obtain ⟨s, step, same⟩ := h.handover enabled
  exact same.roomy (step.roomy room)

/-- The bound of a registry is the one that it was made with. -/
theorem bound_of_make {bound : Int} (made : make bound = .ok r) : (bound.toNat : Int) = bound := by
  rw [make] at made
  split at made
  · omega
  · cases made

theorem roomy_make {bound : Int} (made : make bound = .ok r) : Roomy bound.toNat r := by
  rw [make] at made
  split at made
  · cases made
    exact ⟨rfl, Nat.zero_le _⟩
  · cases made

/-- Every run of a new registry leaves the cache within its bound. -/
theorem Run.roomy {bound : Int} {start : Registry} {events : List Event}
    (made : make bound = .ok start) (run : Run start events r) : Roomy bound.toNat r := by
  have kept := run.preserves (P := fun r ↦ Sound r ∧ Roomy bound.toNat r)
    (fun _ _ h enabled ↦ ⟨h.1.perform enabled, h.2.perform h.1 enabled⟩)
    ⟨sound_make made, roomy_make made⟩
  exact kept.2

/-! ### What has to be closed -/

theorem mem_toClose : console ∈ r.toClose ↔
    (∃ v ∈ r.visits, v.stage = .discarding console) ∨ ∃ c ∈ r.closings, console ∈ c.left := by
  have discarded (stage : Stage) : stage.discarded? = some console ↔ stage = .discarding console := by
    cases stage <;> simp [Stage.discarded?]
  simp [toClose, discarded]

/-- What another visit has to close stays so when a visit goes. -/
theorem mem_toClose_remove (distinct : (r.visits.map Visit.ticket).Nodup) (hv : v ∈ r.visits)
    (other : v.stage ≠ .discarding console) (due : console ∈ r.toClose) :
    console ∈ (r.remove v.ticket).toClose := by
  rw [mem_toClose] at due ⊢
  refine due.imp_left ?_
  rintro ⟨u, hu, stage⟩
  refine ⟨u, List.mem_filter.mpr ⟨hu, ?_⟩, stage⟩
  have ne : u.ticket ≠ v.ticket := fun same ↦
    other (List.inj_on_of_nodup_map distinct hu hv same ▸ stage)
  simpa using ne

theorem mem_toClose_setStage (distinct : (r.visits.map Visit.ticket).Nodup) (hv : v ∈ r.visits)
    (other : v.stage ≠ .discarding console) {stage : Stage} (due : console ∈ r.toClose) :
    console ∈ (r.setStage v.ticket stage).toClose := by
  rw [mem_toClose] at due ⊢
  refine due.imp_left ?_
  rintro ⟨u, hu, discarding⟩
  have ne : u.ticket ≠ v.ticket := fun same ↦
    other (List.inj_on_of_nodup_map distinct hu hv same ▸ discarding)
  exact ⟨u, List.mem_map.mpr ⟨u, hu, if_neg ne⟩, discarding⟩

theorem mem_toClose_close (ticket : Ticket) (stale : List ConsoleId) (due : console ∈ r.toClose) :
    console ∈ (r.close ticket stale).toClose := by
  rw [mem_toClose] at due ⊢
  refine due.imp_right ?_
  rintro ⟨c, hc, hm⟩
  refine ⟨c, ?_, hm⟩
  rw [close]
  split
  · exact hc
  · exact List.mem_append_left _ hc

/-- No hand-over forgets a console that has to be closed. -/
theorem Handover.mem_toClose {event : Event} (step : Handover r event s) (h : Sound r)
    (ticketed : Ticketed r) (due : console ∈ r.toClose) :
    console ∈ s.toClose ∨ console ∈ r.released event := by
  have other {v : Visit} (idle : v.stage.consoles = []) : v.stage ≠ .discarding console := by
    intro stage
    rw [stage] at idle
    cases idle
  cases step with
  | found => exact .inl due
  | joined =>
    rw [Registry.mem_toClose] at due ⊢
    exact .inl (due.imp_left fun ⟨v, hv, stage⟩ ↦ ⟨v, List.mem_append_left _ hv, stage⟩)
  | stayed => exact .inl due
  | left hv idle => exact .inl (mem_toClose_remove h.tickets hv (other idle) due)
  | foundLater hv idle =>
    exact .inl (mem_toClose_remove (h.touch _ _).tickets hv (other idle) due)
  | cancelled => exact .inl due
  | made hv idle => exact .inl (mem_toClose_setStage h.tickets hv (other idle) due)
  | @kept v started hv stage =>
    have visits := insert_visits r v.path started
    have inserted := (sameCustody_insert r v.path started).toClose
    refine .inl (mem_toClose_close _ _ (mem_toClose_remove (visits ▸ h.tickets) (visits.symm ▸ hv) ?_ ?_))
    · rw [stage]
      exact Stage.noConfusion
    · rw [inserted]
      exact due
  | failed hv stage =>
    refine .inl (mem_toClose_setStage h.tickets hv ?_ due)
    rw [stage]
    exact Stage.noConfusion
  | @gaveUp v hv =>
    by_cases stage : v.stage = .discarding console
    · right
      simp [released, stage?, h.visit?_eq_some_iff.mpr ⟨hv, rfl⟩, stage, Stage.discarded?]
    · exact .inl (mem_toClose_remove h.tickets hv stage due)
  | taken => exact .inl (mem_toClose_close (r := { r with cached := _ }) _ _ due)
  | cleared => exact .inl (mem_toClose_close (r := { r with cached := [] }) _ _ due)
  | @closed ticket =>
    rw [toClose, List.mem_append] at due
    rcases due with discarded | left
    · exact .inl (List.mem_append_left _ discarded)
    · have split := perm_left_closed (List.Nodup.of_append_right ticketed.tickets) ticket
      rw [split.mem_iff, ← closings_closed, List.mem_append] at left
      exact left.symm.imp_left (List.mem_append_right _)

/-- **What has to be closed stays so until it has been closed.** -/
theorem Sound.mem_toClose_perform (h : Sound r) (ticketed : Ticketed r) {event : Event}
    (enabled : r.Enabled event) (due : console ∈ r.toClose) :
    console ∈ (r.perform event).toClose ∨ console ∈ r.released event := by
  obtain ⟨s, step, same⟩ := h.handover enabled
  rw [same.toClose]
  exact step.mem_toClose h ticketed due

end VerbForms.Registry
