import VerbForms.Proofs.Registry.Returned
import VerbForms.Proofs.Registry.UnderWay

/-!
# Visits that fail

A visit that is under way has at most the console that it starts or closes, and touches no other. One that
fails has therefore left the cache alone all the time; when its failure is noticed its own console has been
closed, and the lock that it held is free.
-/

namespace VerbForms.Registry

variable {ticket : Ticket} {path : String} {id : ConsoleId}

/-- The operation that something belongs to; the work of a console belongs to none. -/
def Happening.ticket? : Happening → Option Ticket
  | .event happened => some happened.ticket
  | .made ticket _ => some ticket
  | .work _ _ => none

namespace Fleet

variable {fleet middle last : Fleet} {bound : Nat} {happening : Happening} {console : Console}
variable {happenings between more : List Happening} {ending : Event}

/-- The moments of a run: what happens, with the fleet that it happens to. -/
def moments : Fleet → List Happening → List (Fleet × Happening)
  | _, [] => []
  | fleet, happening :: more => (fleet, happening) :: moments (fleet.perform happening) more

/-- The cache has the same consoles in the same order, and none of them has changed. -/
structure SparesCache (before after : Fleet) : Prop where
  cached : after.registry.cached = before.registry.cached
  consoles : ∀ id ∈ before.registry.cachedConsoles, after.consoles[id]? = before.consoles[id]?

/-- A console has been closed. -/
def Ended (fleet : Fleet) (id : ConsoleId) : Prop :=
  ∃ console, fleet.consoles[id]? = some console ∧ console.isOpen = false

/-- A console that has come to nothing: it is closed in the end, and it is cached neither at a moment of
what has happened nor at any time after that. -/
structure Discarded (fleet : Fleet) (happenings : List Happening) (last : Fleet) (id : ConsoleId) :
    Prop where
  ended : last.Ended id
  uncached : ∀ moment ∈ fleet.moments happenings, id ∉ moment.1.registry.cachedConsoles
  forever : ∀ more later, Run last more later → id ∉ later.registry.cachedConsoles

theorem mem_moments_concat {moment : Fleet × Happening} (run : Run fleet happenings last) :
    moment ∈ fleet.moments (happenings ++ [happening]) ↔
      moment ∈ fleet.moments happenings ∨ moment = (last, happening) := by
  induction run with
  | done => simp [moments]
  | step _ _ ih => rw [List.cons_append, moments, moments, List.mem_cons, List.mem_cons, ih, or_assoc]

/-! ### The cache -/

theorem getElem?_tend_of_not_mem {consoles : List Console} {closed begun : List ConsoleId}
    (unclosed : id ∉ closed) (unbegun : id ∉ begun) :
    (tend consoles closed begun)[id]? = consoles[id]? := by
  simp only [tend, List.getElem?_mapIdx, if_neg unclosed, if_neg unbegun, Option.map_id']

/-- An event that leaves the cached entries alone leaves the cached consoles alone. -/
theorem Accounted.sparesCache_event (h : Accounted bound fleet) {event : Event}
    (enabled : fleet.Enabled (.event event))
    (same : (fleet.registry.perform event).cached = fleet.registry.cached) :
    SparesCache fleet (fleet.perform (.event event)) := by
  refine ⟨same, fun id cached ↦ ?_⟩
  have still : id ∈ (fleet.perform (.event event)).registry.cachedConsoles := by
    show id ∈ (fleet.registry.perform event).cached.map Prod.snd
    rwa [same]
  have moved := h.sound.custody_perform h.ticketed h.distinct enabled.1
  rw [enabled.2, List.nil_append] at moved
  have unreleased : id ∉ fleet.registry.released event := fun released ↦
    List.disjoint_of_nodup_append (moved.nodup_iff.mpr h.distinct) released
      (mem_custody.mpr (.inl still))
  have unclosed := (h.perform enabled).not_mem_toClose still
  exact getElem?_tend_of_not_mem unreleased fun begun ↦ unclosed (underClosing_subset _ begun)

/-- What a visit does while it is under way leaves the cache alone. -/
theorem Accounted.sparesCache (h : Accounted bound fleet) (enabled : fleet.Enabled happening)
    (own : happening.ticket? = some ticket)
    (after : (fleet.perform happening).registry.UnderWay ticket) :
    SparesCache fleet (fleet.perform happening) := by
  cases happening with
  | event event =>
    cases own
    exact h.sparesCache_event enabled (h.sound.cached_perform enabled.1 after)
  | made other console =>
    refine ⟨rfl, fun id cached ↦ ?_⟩
    exact List.getElem?_append_left (h.known id (mem_custody.mpr (.inl cached)))
  | work => cases own

/-- A visit that fails leaves the cache alone. -/
theorem Accounted.sparesCache_failure (h : Accounted bound fleet)
    (enabled : fleet.Enabled (.event ending)) (fails : fleet.registry.FailsAt ticket ending) :
    SparesCache fleet (fleet.perform (.event ending)) := by
  obtain ⟨v, -, -, failure⟩ := h.sound.failure enabled.1 fails
  exact h.sparesCache_event enabled (failure.sameCustody h.sound).cached

/-! ### Consoles that have been closed -/

theorem Ended.perform (ended : fleet.Ended id) (enabled : fleet.Enabled happening) :
    (fleet.perform happening).Ended id := by
  obtain ⟨console, found, closed⟩ := ended
  cases happening with
  | event event =>
    have known : (fleet.perform (.event event)).consoles[id]?.isSome = true := by
      rw [Fleet.perform, tend, List.getElem?_mapIdx, found]
      rfl
    obtain ⟨later, after⟩ := Option.isSome_iff_exists.mp known
    obtain ⟨before, same, still, -⟩ := isOpen_tend after
    cases found.symm.trans same
    refine ⟨later, after, Bool.eq_false_iff.mpr fun opened ↦ ?_⟩
    rw [(still.mp opened).1] at closed
    cases closed
  | made ticket new =>
    refine ⟨console, ?_, closed⟩
    exact (List.getElem?_append_left (List.getElem?_eq_some_iff.mp found).1).trans found
  | work other changed =>
    obtain ⟨current, present, isOpen, -⟩ := enabled
    by_cases same : other = id
    · subst same
      cases found.symm.trans present
      refine ⟨changed, ?_, isOpen.trans closed⟩
      exact List.getElem?_set_self (List.getElem?_eq_some_iff.mp found).1
    · exact ⟨console, (List.getElem?_set_ne same).trans found, closed⟩

/-- A console that has been closed is never cached again. -/
theorem Ended.uncached (ended : fleet.Ended id) (h : Accounted bound fleet)
    (run : Run fleet more last) : id ∉ last.registry.cachedConsoles := by
  have later := run.preserves (fun _ _ ended enabled ↦ Ended.perform ended enabled) ended
  obtain ⟨console, found, closed⟩ := later
  intro cached
  have opened := ((run.keepsAccounts h).isOpen_iff id console found).mpr (mem_custody.mpr (.inl cached))
  rw [opened] at closed
  cases closed

/-- A console that an event closes has been closed. -/
theorem Accounted.ended_of_released (h : Accounted bound fleet) {event : Event}
    (known : id ∈ fleet.registry.custody) (released : id ∈ fleet.registry.released event) :
    (fleet.perform (.event event)).Ended id := by
  obtain ⟨console, found⟩ : ∃ console, fleet.consoles[id]? = some console :=
    ⟨_, List.getElem?_eq_getElem (h.known id known)⟩
  refine ⟨console.close, ?_, isOpen_close console⟩
  rw [Fleet.perform, tend, List.getElem?_mapIdx, found, Option.map_some, if_pos released]

/-! ### Visits that last -/

/-- The happenings lead from the first fleet to the last one, and the visit with the ticket is under way
after each of them. -/
inductive Lasts (ticket : Ticket) : Fleet → List Happening → Fleet → Prop where
  | done (fleet : Fleet) : Lasts ticket fleet [] fleet
  | step {fleet last : Fleet} {happening : Happening} {more : List Happening} :
      fleet.Enabled happening → (fleet.perform happening).registry.UnderWay ticket →
      Lasts ticket (fleet.perform happening) more last → Lasts ticket fleet (happening :: more) last

/-- A visit that arrives once and has not ended was under way all the time. -/
theorem Run.lasts (run : Run fleet happenings last) (h : Accounted bound fleet)
    (once : ∀ path, .event (.arrive ticket path) ∉ happenings)
    (present : last.registry.UnderWay ticket) :
    fleet.registry.UnderWay ticket ∧ Lasts ticket fleet happenings last := by
  induction run with
  | done fleet => exact ⟨present, .done fleet⟩
  | @step fleet _ happening _ enabled _ ih =>
    obtain ⟨next, lasts⟩ :=
      ih (h.perform enabled) (fun path mem ↦ once path (List.mem_cons_of_mem happening mem)) present
    refine ⟨?_, .step enabled next lasts⟩
    cases happening with
    | event event =>
      rcases h.sound.underWay_of_perform enabled.1 next with before | ⟨path, rfl⟩
      · exact before
      · exact absurd List.mem_cons_self (once path)
    | made other console =>
      rcases h.sound.underWay_of_perform enabled.1 next with before | ⟨path, arrival⟩
      · exact before
      · cases arrival
    | work => exact next

theorem Lasts.sparesCache (lasts : Lasts ticket fleet happenings last) (h : Accounted bound fleet) :
    ∀ moment ∈ fleet.moments happenings, moment.2.ticket? = some ticket →
      SparesCache moment.1 (moment.1.perform moment.2) := by
  induction lasts with
  | done => exact List.forall_mem_nil _
  | step enabled after _ ih =>
    exact List.forall_mem_cons.mpr
      ⟨fun own ↦ h.sparesCache enabled own after, ih (h.perform enabled)⟩

theorem Accounted.carries_perform (h : Accounted bound fleet) (enabled : fleet.Enabled happening)
    (carries : fleet.registry.Carries ticket id)
    (after : (fleet.perform happening).registry.UnderWay ticket) :
    (fleet.perform happening).registry.Carries ticket id := by
  cases happening with
  | event event => exact h.sound.carries_perform enabled.1 carries after
  | made other console => exact h.sound.carries_perform enabled.1 carries after
  | work => exact carries

/-- While a visit lasts its console is not cached. -/
theorem Lasts.carries (lasts : Lasts ticket fleet happenings last) (h : Accounted bound fleet)
    (carries : fleet.registry.Carries ticket id) :
    (∀ moment ∈ fleet.moments happenings, id ∉ moment.1.registry.cachedConsoles) ∧
      last.registry.Carries ticket id := by
  induction lasts with
  | done => exact ⟨List.forall_mem_nil _, carries⟩
  | step enabled after _ ih =>
    obtain ⟨later, kept⟩ := ih (h.perform enabled) (h.carries_perform enabled carries after)
    exact ⟨List.forall_mem_cons.mpr ⟨carries.uncached h.distinct, later⟩, kept⟩

/-- The visit that a console has been made for has it. -/
theorem Accounted.carries_made (h : Accounted bound fleet)
    (enabled : fleet.Enabled (.made ticket console)) :
    (fleet.perform (.made ticket console)).registry.Carries ticket fleet.consoles.length := by
  obtain ⟨v, hv, rfl, -, -⟩ := h.sound.exists_of_stage? enabled.1
  exact ⟨_, mem_setStage hv _, rfl, .inl rfl⟩

theorem length_consoles_perform (fleet : Fleet) (happening : Happening) :
    fleet.consoles.length ≤ (fleet.perform happening).consoles.length := by
  cases happening with
  | event => rw [Fleet.perform, tend, List.length_mapIdx]
  | made => rw [Fleet.perform, List.length_append]; exact Nat.le_add_right _ _
  | work => rw [Fleet.perform, List.length_set]

theorem length_consoles_of_mem_moments {moment : Fleet × Happening}
    (mem : moment ∈ fleet.moments happenings) :
    fleet.consoles.length ≤ moment.1.consoles.length := by
  induction happenings generalizing fleet with
  | nil => cases mem
  | cons happening more ih =>
    rcases List.mem_cons.mp mem with rfl | later
    · exact Nat.le_refl _
    · exact Nat.le_trans (length_consoles_perform fleet happening) (ih later)

/-- A console that has not been made is not cached. -/
theorem Accounted.uncached_of_length_le (h : Accounted bound fleet)
    (unmade : fleet.consoles.length ≤ id) : id ∉ fleet.registry.cachedConsoles :=
  fun cached ↦ Nat.not_lt.mpr unmade (h.known id (mem_custody.mpr (.inl cached)))

/-- A visit that lasts has the console that was made for it, which is not cached at any moment. -/
theorem Lasts.made (lasts : Lasts ticket fleet happenings last) (h : Accounted bound fleet)
    {origin : Fleet} (mem : (origin, .made ticket console) ∈ fleet.moments happenings) :
    (∀ moment ∈ fleet.moments happenings, origin.consoles.length ∉ moment.1.registry.cachedConsoles) ∧
      last.registry.Carries ticket origin.consoles.length := by
  induction lasts with
  | done => cases mem
  | step enabled after lasts ih =>
    rcases List.mem_cons.mp mem with here | later
    · cases here
      obtain ⟨uncached, kept⟩ := lasts.carries (h.perform enabled) (h.carries_made enabled)
      exact ⟨List.forall_mem_cons.mpr ⟨h.uncached_of_length_le (Nat.le_refl _), uncached⟩, kept⟩
    · obtain ⟨uncached, kept⟩ := ih (h.perform enabled) later
      have older := Nat.le_trans (length_consoles_perform _ _) (length_consoles_of_mem_moments later)
      exact ⟨List.forall_mem_cons.mpr ⟨h.uncached_of_length_le older, uncached⟩, kept⟩

theorem Accounted.ended_of_carries (h : Accounted bound fleet) (enabled : fleet.Enabled (.event ending))
    (fails : fleet.registry.FailsAt ticket ending) (carries : fleet.registry.Carries ticket id) :
    (fleet.perform (.event ending)).Ended id := by
  have released := carries.released h.sound enabled.1 fails
  have moved := h.sound.custody_perform h.ticketed h.distinct enabled.1
  rw [enabled.2, List.nil_append] at moved
  exact h.ended_of_released (moved.subset (List.mem_append_left _ released)) released

/-- A visit that takes its turn and is over fails or gives back the console that it finds. -/
theorem Accounted.ends_turn (h : Accounted bound fleet)
    (enabled : fleet.registry.Enabled (.turn ticket))
    (gone : ¬ (fleet.registry.perform (.turn ticket)).UnderWay ticket) :
    fleet.registry.FailsAt ticket (.turn ticket) ∨
      ∃ path id, fleet.Returns ticket path id [.event (.turn ticket)] := by
  have resumes := h.sound.resumes enabled
  generalize here : fleet.registry.resume ticket = result at resumes
  cases resumes with
  | @found v id mem =>
    exact .inr ⟨v.path, id, .foundLater (path?_of_mem h.sound mem) (by rw [here])⟩
  | builds mem =>
    rw [Registry.perform, here, UnderWay, tickets_setStage] at gone
    exact absurd (List.mem_map_of_mem mem) gone
  | quits => exact .inl ⟨rfl, by rw [here]⟩

/-- A visit that is over has failed or gives a console back; there is no third way. -/
theorem Accounted.ends (h : Accounted bound fleet) (enabled : fleet.Enabled happening)
    (present : fleet.registry.UnderWay ticket)
    (gone : ¬ (fleet.perform happening).registry.UnderWay ticket) :
    (∃ event, happening = .event event ∧ fleet.registry.FailsAt ticket event) ∨
      ∃ path id ending, fleet.Returns ticket path id (happening :: ending) := by
  have staged {other : Ticket} {stage : Stage} :
      (fleet.registry.setStage other stage).UnderWay ticket := by
    rw [UnderWay, tickets_setStage]
    exact present
  cases happening with
  | made => exact absurd staged gone
  | work => exact absurd present gone
  | event event =>
    obtain ⟨s, step, same⟩ := h.sound.handover enabled.1
    have own : ticket = event.ticket := by
      by_contra other
      exact gone ((same.underWay_iff ticket).mpr (step.underWay_of_ne present other))
    subst own
    cases event with
    | arrive => exact absurd enabled.1 present.not_fresh
    | turn ticket =>
      rcases h.ends_turn enabled.1 gone with fails | ⟨path, id, returns⟩
      · exact .inl ⟨_, rfl, fails⟩
      · exact .inr ⟨path, id, [], returns⟩
    | cancel =>
      exact absurd ((h.sound.sameCustody_cancel enabled.1).underWay_iff _ |>.mpr present) gone
    | made => exact absurd staged gone
    | keep ticket =>
      obtain ⟨v, hv, rfl, -, starts⟩ := h.sound.exists_of_stage? enabled.1
      obtain ⟨id, stage⟩ := Stage.eq_of_starts starts
      exact .inr ⟨v.path, id, _, .built (path?_of_mem h.sound hv)
        ((stage?_of_mem h.sound hv).trans (congrArg some stage))⟩
    | fail ticket =>
      cases step with
      | failed => exact absurd ((same.underWay_iff _).mpr staged) gone
    | giveUp => exact .inl ⟨_, rfl, rfl⟩
    | reset => exact absurd enabled.1 present.not_fresh
    | clear => exact absurd enabled.1 present.not_fresh
    | closed => exact absurd present gone

/-- **A visit that fails leaves the cache alone.** In every run a visit arrives, other things happen, and
then it fails, because its factory or the start of its console has failed or because it was cancelled in
the queue or while it built. Whatever it does itself leaves the cached consoles, their order and each of
them as they are; a console that was made for it is closed in the end and never cached; and it holds no lock
any more, and neither does anybody else if it was the one that held it. -/
theorem failed_visit_spares_cache {bound : Int} {start : Registry} (made : make bound = .ok start)
    (before : Run ⟨start, []⟩ happenings fleet)
    (visit : Run fleet (.event (.arrive ticket path) :: between) middle)
    (once : ∀ key, .event (.arrive ticket key) ∉ between)
    (enabled : middle.Enabled (.event ending)) (fails : middle.registry.FailsAt ticket ending) :
    (∀ moment ∈ fleet.moments (.event (.arrive ticket path) :: between ++ [.event ending]),
      moment.2.ticket? = some ticket → SparesCache moment.1 (moment.1.perform moment.2)) ∧
    (∀ moment ∈ fleet.moments (.event (.arrive ticket path) :: between), ∀ console,
      moment.2 = .made ticket console →
        fleet.Discarded (.event (.arrive ticket path) :: between ++ [.event ending])
          (middle.perform (.event ending)) moment.1.consoles.length) ∧
    ¬ (middle.perform (.event ending)).registry.UnderWay ticket ∧
    ∀ v ∈ middle.registry.visits, v.ticket = ticket → v.stage.holds = true →
      (middle.perform (.event ending)).registry.held v.lock = false := by
  have h := before.accounted made
  have later := visit.keepsAccounts h
  obtain ⟨u, hu, rfl, failure⟩ := later.sound.failure enabled.1 fails
  have lasts : Lasts u.ticket fleet (.event (.arrive u.ticket path) :: between) middle := by
    cases visit with
    | step arrives rest =>
      obtain ⟨arrived, lasts⟩ := rest.lasts (h.perform arrives) once (List.mem_map_of_mem hu)
      exact .step arrives arrived lasts
  refine ⟨fun moment mem own ↦ ?_, fun moment mem console making ↦ ?_,
    later.sound.not_underWay_of_failsAt enabled.1 fails, fun v hv same holds ↦ ?_⟩
  · rcases (mem_moments_concat visit).mp mem with early | rfl
    · exact lasts.sparesCache h moment early own
    · exact later.sparesCache_failure enabled fails
  · obtain ⟨origin, happening⟩ := moment
    cases making
    obtain ⟨uncached, carries⟩ := lasts.made h mem
    have ended := later.ended_of_carries enabled fails carries
    refine ⟨ended, fun moment mem ↦ ?_, fun more last run ↦ ended.uncached (later.perform enabled) run⟩
    rcases (mem_moments_concat visit).mp mem with early | rfl
    · exact uncached moment early
    · exact carries.uncached later.distinct
  · obtain rfl := List.inj_on_of_nodup_map later.sound.tickets hv hu same
    exact failure.held later.sound hv holds

/-- Two paths have their consoles. The start of the console of a third path fails while another visit waits
for it and one more uses the first path: the order of the cache is the one of that other visit, the third
console has come to nothing, and its lock is held by nobody. -/
theorem third_console_is_discarded :
    ∃ (start : Registry) (fleet middle : Fleet), make 2 = .ok start ∧
      Run ⟨start, []⟩
        [.event (.arrive 0 "/a"),
          .made 0 (.ofPanels "/a" true [.make "POST" "/a" true] default), .event (.keep 0),
          .event (.arrive 1 "/b"),
          .made 1 (.ofPanels "/b" true [.make "POST" "/b" true] default), .event (.keep 1)] fleet ∧
      Run fleet
        (.event (.arrive 2 "/c") ::
          [.event (.arrive 3 "/c"), .made 2 (.ofPanels "/c" true [.make "POST" "/c" true] default),
            .event (.arrive 4 "/a"), .event (.fail 2)]) middle ∧
      middle.Enabled (.event (.giveUp 2)) ∧ middle.registry.FailsAt 2 (.giveUp 2) ∧
      middle.registry.cachedConsoles = [1, 0] ∧
      SparesCache middle (middle.perform (.event (.giveUp 2))) ∧
      (middle.perform (.event (.giveUp 2))).Ended 2 ∧
      (middle.perform (.event (.giveUp 2))).registry.held 2 = false := by
  have made : make 2 = .ok ⟨2, by decide, [], [], 0, [], []⟩ := rfl
  have before : Run ⟨⟨2, by decide, [], [], 0, [], []⟩, []⟩
      [.event (.arrive 0 "/a"),
        .made 0 (.ofPanels "/a" true [.make "POST" "/a" true] default), .event (.keep 0),
        .event (.arrive 1 "/b"),
        .made 1 (.ofPanels "/b" true [.make "POST" "/b" true] default), .event (.keep 1)] _ :=
    .step ⟨by decide, rfl⟩ (.step ⟨by decide, rfl, rfl⟩ (.step ⟨by decide, rfl⟩
      (.step ⟨by decide, rfl⟩ (.step ⟨by decide, rfl, rfl⟩ (.step ⟨by decide, rfl⟩ (.done _))))))
  obtain ⟨spares, discards, -, free⟩ :=
    @failed_visit_spares_cache 2 "/c" _ _ _
      [.event (.arrive 3 "/c"), .made 2 (.ofPanels "/c" true [.make "POST" "/c" true] default),
        .event (.arrive 4 "/a"), .event (.fail 2)] (.giveUp 2) 2 _ made before
      (.step ⟨by decide, rfl⟩ (.step ⟨by decide, rfl⟩ (.step ⟨by decide, rfl, rfl⟩
        (.step ⟨by decide, rfl⟩ (.step ⟨by decide, rfl⟩ (.done _))))))
      (by simp) ⟨by decide, rfl⟩ rfl
  refine ⟨_, _, _, made, before, .step ⟨by decide, rfl⟩ (.step ⟨by decide, rfl⟩
    (.step ⟨by decide, rfl, rfl⟩ (.step ⟨by decide, rfl⟩ (.step ⟨by decide, rfl⟩ (.done _))))),
    ⟨by decide, rfl⟩, rfl, by decide, spares _ (List.mem_of_getElem? (i := 5) rfl) rfl,
    (discards _ (List.mem_of_getElem? (i := 2) rfl) _ rfl).ended, ?_⟩
  exact free ⟨2, "/c", 2, .discarding 2⟩ (by decide) rfl rfl

end Fleet

end VerbForms.Registry
