import VerbForms.Proofs.Registry.Calm
import VerbForms.Proofs.Registry.Handover
import VerbForms.Proofs.Registry.SingleBuild

/-!
# One path of a registry

What an event does to the builds and the console of one path, and what the clients of the path notice
of it. `Passage` says it once for all events of a run in which no build of the registry fails and the
path is not reset.
-/

namespace VerbForms.Registry

variable {r s : Registry} {v : Visit} {lock : LockId} {ticket : Ticket} {path key : String}
variable {console : ConsoleId}

/-- What is noticed of a path. -/
inductive Note where
  /-- The factory is called for it. -/
  | called
  /-- The factory has made a console for it. -/
  | made (console : ConsoleId)
  /-- A visit to it ends with a console. -/
  | given (console : ConsoleId)
  deriving DecidableEq, Repr

/-- The path of the visit with a ticket. -/
def path? (r : Registry) (ticket : Ticket) : Option String := (r.visit? ticket).map Visit.path

/-- What is noticed of an arrival. -/
def Arrival.note : Arrival → Option Note
  | .found console => some (.given console)
  | .builds => some .called
  | .queued => none

/-- What is noticed of a turn. -/
def TurnEnd.note : TurnEnd → Option Note
  | .found console => some (.given console)
  | .builds => some .called
  | .cancelled | .asleep => none

/-- What is noticed of a path when an event happens. -/
def note (r : Registry) (path : String) : Event → Option Note
  | .arrive ticket key => if key = path then (r.arrive ticket key).2.note else none
  | .turn ticket => if r.path? ticket = some path then (r.resume ticket).2.1.note else none
  | .made ticket console => if r.path? ticket = some path then some (.made console) else none
  | .keep ticket =>
    if r.path? ticket = some path then ((r.stage? ticket).bind Stage.started?).map .given else none
  | _ => none

/-- Whether a visit to the path arrives. -/
def Event.visits (path : String) : Event → Bool
  | .arrive _ key => key = path
  | _ => false

/-- Whether a build fails or the consoles of the path are taken out. -/
def Event.disturbs (path : String) : Event → Bool
  | .fail _ | .giveUp _ | .clear _ => true
  | .reset _ key => key = path
  | _ => false

/-! ### Builds of a path -/

theorem builds_of_visits (same : s.visits = r.visits) (path : String) :
    s.builds path = r.builds path := by
  rw [builds, builds, same]

theorem builds_remove (r : Registry) (ticket : Ticket) (path : String) :
    (r.remove ticket).builds path = (r.builds path).filter (·.ticket != ticket) := by
  rw [builds, builds, remove, List.filter_filter, List.filter_filter]
  exact List.filter_congr fun u _ ↦ Bool.and_comm _ _

private theorem filter_map_of_fixed {test : Visit → Bool} {change : Visit → Visit}
    {visits : List Visit}
    (fixed : ∀ u ∈ visits, test (change u) = test u ∧ (test u = true → change u = u)) :
    (visits.map change).filter test = visits.filter test := by
  induction visits with
  | nil => rfl
  | cons first rest ih =>
    obtain ⟨⟨same, here⟩, others⟩ := List.forall_mem_cons.mp fixed
    rw [List.map_cons, List.filter_cons, List.filter_cons, same, ih others]
    split
    · next passes => rw [here passes]
    · rfl

/-- Where a visit does not build the path and does not begin to, the builds stay. -/
theorem builds_setStage (distinct : (r.visits.map Visit.ticket).Nodup) (hv : v ∈ r.visits)
    {stage : Stage} (idle : v.path = path → v.stage.isBuild = false ∧ stage.isBuild = false) :
    (r.setStage v.ticket stage).builds path = r.builds path := by
  apply filter_map_of_fixed
  intro u hu
  by_cases namesake : u.ticket = v.ticket
  · obtain rfl := List.inj_on_of_nodup_map distinct hu hv namesake
    rw [if_pos rfl]
    by_cases here : u.path = path
    · simp [(idle here).1, (idle here).2]
    · simp [beq_eq_false_iff_ne.mpr here]
  · rw [if_neg namesake]
    exact ⟨rfl, fun _ ↦ rfl⟩

/-- A build that goes on stays where it is among the builds. -/
theorem builds_setStage_build (distinct : (r.visits.map Visit.ticket).Nodup) (hv : v ∈ r.visits)
    (before : v.stage.isBuild = true) {stage : Stage} (after : stage.isBuild = true)
    (path : String) :
    (r.setStage v.ticket stage).builds path =
      (r.builds path).map fun u ↦ if u.ticket = v.ticket then { u with stage } else u := by
  rw [builds, builds, setStage, List.filter_map]
  congr 1
  apply List.filter_congr
  intro u hu
  rw [Function.comp_apply]
  split
  · next namesake =>
    obtain rfl := List.inj_on_of_nodup_map distinct hu hv namesake
    rw [before, after]
  · rfl

/-- Waking is nothing to builds. -/
theorem builds_wakeFirst (distinct : (r.visits.map Visit.ticket).Nodup) (lock : LockId)
    (path : String) : (r.wakeFirst lock).1.builds path = r.builds path := by
  rcases wakeFirst_eq r lock with same | ⟨first, queued, waits, woken⟩
  · rw [same]
  · rw [woken]
    apply builds_setStage distinct (List.mem_of_mem_filter queued)
    intro _
    rw [waits]
    exact ⟨rfl, rfl⟩

theorem builds_tidy (r : Registry) (key : String) (lock : LockId) (path : String) :
    (r.tidy key lock).builds path = r.builds path := by
  obtain ⟨locks, same⟩ := r.tidy_with key lock
  rw [same]
  rfl

theorem builds_leave (distinct : (r.visits.map Visit.ticket).Nodup) (v : Visit) (path : String) :
    (r.leave v).1.builds path = (r.builds path).filter (·.ticket != v.ticket) := by
  have gone := tickets_remove distinct v.ticket
  show (((r.remove v.ticket).wakeFirst v.lock).1.tidy v.path v.lock).builds path = _
  rw [builds_tidy, builds_wakeFirst gone, builds_remove]

theorem builds_quit (distinct : (r.visits.map Visit.ticket).Nodup) (v : Visit) (path : String) :
    (r.quit v).1.builds path = (r.builds path).filter (·.ticket != v.ticket) := by
  cases held : (r.remove v.ticket).held v.lock with
  | true => rw [quit_of_held held, builds_tidy, builds_remove]
  | false =>
    rw [quit_of_free held]
    exact builds_leave distinct v path

/-- A visit that does not build the path goes without a change of the builds. -/
theorem filter_builds (distinct : (r.visits.map Visit.ticket).Nodup) (hv : v ∈ r.visits)
    (idle : v.path = path → v.stage.isBuild = false) :
    (r.builds path).filter (·.ticket != v.ticket) = r.builds path := by
  apply List.filter_eq_self.mpr
  intro u hu
  apply bne_iff_ne.mpr
  intro namesake
  obtain ⟨mem, here, build⟩ := mem_builds.mp hu
  obtain rfl := List.inj_on_of_nodup_map distinct mem hv namesake
  rw [idle here] at build
  cases build

/-! ### What an event does -/

/-- What an event does to the builds of a path, and what is noticed of it. -/
inductive Passage (r : Registry) (path : String) : Event → Option Note → List Visit → Prop where
  /-- Others are concerned, or a visit that only leaves. -/
  | aside {event : Event} : event.visits path = false →
      Passage r path event none (r.builds path)
  /-- A visit finds the console. -/
  | found {event : Event} {console : ConsoleId} : r.find? path = some console →
      Passage r path event (some (.given console)) (r.builds path)
  /-- A newcomer has to wait. -/
  | queued {ticket : Ticket} : r.find? path = none →
      (r.lockFor path).1.isFree (r.lockFor path).2 = false →
      Passage r path (.arrive ticket path) none (r.builds path)
  /-- A newcomer builds. -/
  | called {ticket : Ticket} : r.find? path = none →
      (r.lockFor path).1.isFree (r.lockFor path).2 = true →
      Passage r path (.arrive ticket path) (some .called)
        (r.builds path ++ [⟨ticket, path, (r.lockFor path).2, .building none⟩])
  /-- A visit that has been woken builds. -/
  | resumed {v : Visit} {after : List Visit} : v ∈ r.visits → v.path = path →
      v.stage = .woken → r.find? path = none →
      Passage r path (.turn v.ticket) (some .called) after
  | made {v : Visit} {console : ConsoleId} : v ∈ r.builds path → v.stage = .building none →
      Passage r path (.made v.ticket console) (some (.made console))
        ((r.builds path).map fun u ↦
          if u.ticket = v.ticket then { u with stage := .building (some console) } else u)
  | kept {v : Visit} {console : ConsoleId} : v ∈ r.builds path →
      v.stage = .building (some console) →
      Passage r path (.keep v.ticket) (some (.given console))
        ((r.builds path).filter (·.ticket != v.ticket))

/-- A newcomer takes a lock that is free. -/
theorem arrive_of_free (absent : r.find? key = none)
    (free : (r.lockFor key).1.isFree (r.lockFor key).2 = true) (ticket : Ticket) :
    r.arrive ticket key =
      ({ (r.lockFor key).1 with
        visits := (r.lockFor key).1.visits ++
          [⟨ticket, key, (r.lockFor key).2, .building none⟩] }, .builds) := by
  rw [arrive, absent]
  dsimp only
  rw [if_pos free]

/-- A newcomer joins the queue of a lock that is not free. -/
theorem arrive_of_busy (absent : r.find? key = none)
    (busy : (r.lockFor key).1.isFree (r.lockFor key).2 = false) (ticket : Ticket) :
    r.arrive ticket key =
      ({ (r.lockFor key).1 with
        visits := (r.lockFor key).1.visits ++ [⟨ticket, key, (r.lockFor key).2, .waiting⟩] },
        .queued) := by
  rw [arrive, absent]
  dsimp only
  rw [busy, if_neg Bool.false_ne_true]

theorem builds_newcomer (r : Registry) (v : Visit) (path : String) :
    ({ r with visits := r.visits ++ [v] } : Registry).builds path =
      r.builds path ++ if v.path = path ∧ v.stage.isBuild = true then [v] else [] := by
  rw [builds, builds, List.filter_append, List.filter_singleton]
  simp

theorem passage_arrive (r : Registry) (ticket : Ticket) (key path : String) :
    Passage r path (.arrive ticket key) (r.note path (.arrive ticket key))
      ((r.arrive ticket key).1.builds path) := by
  have table := builds_of_visits (lockFor_visits r key) path
  by_cases here : key = path
  · subst here
    rw [note, if_pos rfl]
    cases known : r.find? key with
    | some console =>
      rw [arrive_of_found known]
      exact .found known
    | none =>
      cases free : (r.lockFor key).1.isFree (r.lockFor key).2 with
      | true =>
        rw [arrive_of_free known free, builds_newcomer, table, if_pos ⟨rfl, rfl⟩]
        exact .called known free
      | false =>
        rw [arrive_of_busy known free, builds_newcomer, table, if_neg (by simp [Stage.isBuild]),
          List.append_nil]
        exact .queued known free
  · have same : (r.arrive ticket key).1.builds path = r.builds path := by
      rw [arrive]
      split
      · rfl
      · dsimp only
        split
        · rw [builds_newcomer, table, if_neg (by simp [here]), List.append_nil]
        · rw [builds_newcomer, table, if_neg (by simp [here]), List.append_nil]
    rw [note, if_neg here, same]
    exact .aside (by simpa [Event.visits] using here)

theorem path?_of_mem (h : Sound r) (hv : v ∈ r.visits) : r.path? v.ticket = some v.path := by
  rw [path?, h.visit?_eq_some_iff.mpr ⟨hv, rfl⟩]
  rfl

theorem Stage.eq_of_produces {stage : Stage} (h : stage.produces = true) :
    stage = .building none := by
  cases stage with
  | building made => cases made <;> first | rfl | cases h
  | _ => cases h

theorem Stage.not_isBuild_of_canCancel {stage : Stage} (queued : stage.canCancel = true) :
    stage.isBuild = false := by
  cases stage <;> first | rfl | cases queued

theorem Sound.passage_turn (h : Sound r) (enabled : (r.stage? ticket).any Stage.takesTurn = true)
    (path : String) :
    Passage r path (.turn ticket) (r.note path (.turn ticket)) ((r.resume ticket).1.builds path) := by
  have resumes := h.resumes enabled
  rw [note]
  generalize r.resume ticket = result at resumes ⊢
  have still {v : Visit} (mem : v ∈ r.visits) (idle : v.stage.isBuild = false) :
      (r.builds path).filter (·.ticket != v.ticket) = r.builds path :=
    filter_builds h.tickets mem fun _ ↦ idle
  cases resumes with
  | @found v console mem woken known =>
    have touched : (r.touch v.path console).builds path = r.builds path := rfl
    rw [path?_of_mem h mem, builds_leave (h.touch v.path console).tickets, touched,
      still mem (by rw [woken]; rfl)]
    split
    · next here => exact .found (Option.some.inj here ▸ known)
    · exact .aside rfl
  | @builds v mem woken absent =>
    rw [path?_of_mem h mem]
    split
    · next here =>
      have here := Option.some.inj here
      exact .resumed mem here woken (here ▸ absent)
    · next other =>
      rw [builds_setStage h.tickets mem fun here ↦ absurd (congrArg some here) other]
      exact .aside rfl
  | @quits v mem gone =>
    have idle : v.stage.isBuild = false := by rcases gone with gone | gone <;> rw [gone] <;> rfl
    rw [builds_quit h.tickets, still mem idle, TurnEnd.note, ite_self]
    exact .aside rfl

theorem Sound.builds_cancel (h : Sound r)
    (enabled : (r.stage? ticket).any Stage.canCancel = true) (path : String) :
    (r.cancel ticket).1.builds path = r.builds path := by
  obtain ⟨v, hv, rfl, hs, ht⟩ := h.exists_of_stage? enabled
  have idle := Stage.not_isBuild_of_canCancel ht
  rw [Registry.cancel, hs, Option.map_some]
  split
  · exact builds_setStage h.tickets hv fun _ ↦ ⟨idle, rfl⟩
  · exact builds_setStage h.tickets hv fun _ ↦ ⟨idle, rfl⟩
  · rfl

theorem Sound.note_keep (h : Sound r) (hv : v ∈ r.visits)
    (stage : v.stage = .building (some console)) :
    r.note v.path (.keep v.ticket) = some (.given console) := by
  rw [note, if_pos (path?_of_mem h hv), stage?_of_mem h hv, stage]
  rfl

theorem Sound.passage_keep (h : Sound r) (enabled : (r.stage? ticket).any Stage.starts = true)
    (path : String) :
    Passage r path (.keep ticket) (r.note path (.keep ticket))
      ((r.perform (.keep ticket)).builds path) := by
  obtain ⟨v, hv, rfl, hs, ht⟩ := h.exists_of_stage? enabled
  obtain ⟨console, stage⟩ := Stage.eq_of_starts ht
  have kept : (r.perform (.keep v.ticket)).builds path =
      (r.builds path).filter (·.ticket != v.ticket) := by
    have inserted := h.insert v.path console
    rw [Registry.perform, stage?_of_mem h hv, stage]
    dsimp only
    rw [keep_eq hs]
    show ((r.insert v.path console).1.leave v).1.builds path = _
    rw [builds_leave inserted.tickets, builds_of_visits (insert_visits r v.path console)]
  by_cases here : v.path = path
  · subst here
    rw [h.note_keep hv stage, kept]
    exact .kept (mem_builds.mpr ⟨hv, rfl, by rw [stage]; rfl⟩) stage
  · have noted : r.note path (.keep v.ticket) = none := by
      rw [note, if_neg (by simpa [path?_of_mem h hv] using here)]
    rw [noted, kept, filter_builds h.tickets hv fun same ↦ absurd same here]
    exact .aside rfl

theorem Sound.passage_made (h : Sound r) (enabled : (r.stage? ticket).any Stage.produces = true)
    (console : ConsoleId) (path : String) :
    Passage r path (.made ticket console) (r.note path (.made ticket console))
      ((r.made ticket console).builds path) := by
  obtain ⟨v, hv, rfl, hs, ht⟩ := h.exists_of_stage? enabled
  by_cases here : v.path = path
  · have noted : r.note path (.made v.ticket console) = some (.made console) := by
      rw [note, if_pos (by rw [path?_of_mem h hv, here])]
    have stage := Stage.eq_of_produces ht
    have build : v.stage.isBuild = true := Stage.isBuild_of_produces ht
    rw [noted, Registry.made, builds_setStage_build h.tickets hv build rfl]
    exact .made (mem_builds.mpr ⟨hv, here, build⟩) stage
  · have noted : r.note path (.made v.ticket console) = none := by
      rw [note, if_neg (by simpa [path?_of_mem h hv] using here)]
    rw [noted, Registry.made, builds_setStage h.tickets hv fun same ↦ absurd same here]
    exact .aside rfl

/-- **What an event does to one path**, unless it disturbs it. -/
theorem Sound.passage (h : Sound r) {event : Event} (enabled : r.Enabled event)
    (calm : event.disturbs path = false) :
    Passage r path event (r.note path event) ((r.perform event).builds path) := by
  cases event with
  | arrive ticket key => exact r.passage_arrive ticket key path
  | turn ticket => exact h.passage_turn enabled path
  | cancel ticket =>
    rw [Registry.perform, h.builds_cancel enabled]
    exact .aside rfl
  | made ticket console => exact h.passage_made enabled console path
  | keep ticket => exact h.passage_keep enabled path
  | reset ticket key =>
    have same : (r.reset ticket key).1.builds path = r.builds path := by
      rw [reset_eq]
      exact builds_of_visits (forgetLockOf_visits _ key) path
    rw [Registry.perform, same]
    exact .aside rfl
  | closed ticket => exact .aside rfl
  | fail ticket => cases calm
  | giveUp ticket => cases calm
  | clear ticket => cases calm

/-! ### The console of a path -/

/-- The use of a console puts none at another path. -/
theorem find?_touch (keys : (Assoc.keys r.cached).Nodup) (key : String) (console : ConsoleId)
    (path : String) :
    (r.touch key console).find? path = if key = path then some console else r.find? path := by
  rw [find?, touch, Assoc.get?_append]
  split
  · next here =>
    rw [here, Assoc.get?_erase_self keys, Option.none_or, Assoc.get?, if_pos rfl]
  · next other =>
    rw [Assoc.get?_erase_of_ne other, Assoc.get?, if_neg other, Assoc.get?_nil, Option.or_none,
      find?]

/-- The most recently used console is never evicted. -/
theorem last_mem_evict {entries : List (String × ConsoleId)} {last : String × ConsoleId}
    (cached : r.cached = entries ++ [last]) : last ∈ (r.evict (entries ++ [last])).1.cached := by
  induction entries generalizing r with
  | nil =>
    have room : ¬ r.bound < r.cached.length := by
      rw [cached]
      exact Nat.not_lt.mpr r.bound_pos
    rw [List.nil_append, evict, if_neg room, cached]
    exact List.mem_singleton_self last
  | cons entry rest ih =>
    rw [List.cons_append, evict]
    split
    · exact ih (forgetLockOf_cached _ entry.1)
    · rw [cached]
      exact List.mem_append_right _ (List.mem_singleton_self last)

/-- A console that is put at its path is there. -/
theorem Sound.find?_insert_self (h : Sound r) (key : String) (console : ConsoleId) :
    (r.insert key console).1.find? key = some console :=
  Assoc.get?_eq_some_of_mem (h.insert key console).cachedKeys (last_mem_evict rfl)

/-- A console that is put at another path leaves the one of a path, or evicts it. -/
theorem Sound.find?_insert_of_ne (h : Sound r) (other : key ≠ path)
    (retained : (r.find? path).isSome = true →
      ((r.insert key console).1.find? path).isSome = true) :
    (r.insert key console).1.find? path = r.find? path := by
  obtain ⟨cached, locks, inserted, old⟩ := insert_with h.cachedKeys key console
  rw [inserted] at retained ⊢
  cases after : find? { r with cached, locks } path with
  | none =>
    rw [after] at retained
    cases before : r.find? path with
    | none => rfl
    | some console => simp [before] at retained
  | some kept =>
    rcases old _ (Assoc.mem_of_get?_eq_some after) with new | ⟨mem, -⟩
    · exact absurd (congrArg Prod.fst new).symm other
    · exact (Assoc.get?_eq_some_of_mem h.cachedKeys mem).symm

theorem Sound.find?_keep (h : Sound r) (hv : v ∈ r.visits)
    (stage : v.stage = .building (some console)) (path : String) :
    (r.perform (.keep v.ticket)).find? path = (r.insert v.path console).1.find? path := by
  have left := sameCustody_leave (h.insert v.path console).tickets v
  have found := h.visit?_eq_some_iff.mpr ⟨hv, rfl⟩
  rw [Registry.perform, stage?_of_mem h hv, stage]
  dsimp only
  rw [keep_eq found, find?, find?]
  exact congrArg (Assoc.get? · path) left.cached

/-- Only a build of the path that succeeds changes its console, as long as nothing takes it out. -/
theorem Sound.find?_perform (h : Sound r) {event : Event} (enabled : r.Enabled event)
    (calm : event.disturbs path = false)
    (retained : (r.find? path).isSome = true → ((r.perform event).find? path).isSome = true)
    (other : ∀ v ∈ r.builds path, event ≠ .keep v.ticket) :
    (r.perform event).find? path = r.find? path := by
  obtain ⟨s, step, same⟩ := h.handover enabled
  have cached : (r.perform event).find? path = s.find? path := by
    rw [find?, find?, same.cached]
  rw [cached] at retained ⊢
  have touched {key : String} {console : ConsoleId} (found : r.find? key = some console) :
      (r.touch key console).find? path = r.find? path := by
    rw [find?_touch h.cachedKeys]
    split
    · next here => rw [← here, found]
    · rfl
  cases step with
  | found found => exact touched found
  | foundLater _ _ found => exact touched found
  | @kept v console hv stage =>
    have elsewhere : v.path ≠ path := by
      intro here
      exact other v (mem_builds.mpr ⟨hv, here, by rw [stage]; rfl⟩) rfl
    exact h.find?_insert_of_ne elsewhere retained
  | @taken ticket key =>
    have elsewhere : key ≠ path := by simpa [Event.disturbs] using calm
    exact Assoc.get?_erase_of_ne elsewhere r.cached
  | cleared => cases calm
  | _ => rfl

end VerbForms.Registry
