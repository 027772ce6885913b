import VerbForms.Proofs.Registry.Fleet
import VerbForms.Proofs.Registry.Passage

/-!
# Consoles that visits give back

A visit gives back the console that it finds when it comes, the one that it finds after it has waited, or
the one that it has built. A build closes what has to make room before it gives its console back; where
these closings do not suspend, nothing comes between the insertion and the return, so that the console is
still in its place when the visit has ended.
-/

namespace VerbForms.Registry

variable {r s : Registry} {v : Visit} {ticket : Ticket} {path : String} {id : ConsoleId}

/-! ### What is found -/

/-- A newcomer finds the console of its path. -/
theorem find?_of_arrive_found (found : (r.arrive ticket path).2 = .found id) :
    r.find? path = some id := by
  cases known : r.find? path with
  | some console =>
    rw [arrive_of_found known] at found
    cases found
    rfl
  | none =>
    cases free : (r.lockFor path).1.isFree (r.lockFor path).2 with
    | true =>
      rw [arrive_of_free known free] at found
      cases found
    | false =>
      rw [arrive_of_busy known free] at found
      cases found

/-- A visit that finds a console at its turn has been woken, and finds the one of its path. -/
theorem exists_of_resume_found (found : (r.resume ticket).2.1 = .found id) :
    ∃ v, r.visit? ticket = some v ∧ v.stage = .woken ∧ r.find? v.path = some id := by
  rw [resume] at found
  split at found
  · cases found
  · next v visit =>
    split at found
    · next woken =>
      split at found
      · next console known =>
        cases found
        exact ⟨v, visit, woken, known⟩
      · cases found
    · cases found
    · cases found
    · cases found

/-! ### What is left of a visit -/

theorem SameCustody.fresh (same : SameCustody r s) (fresh : r.Fresh ticket) : s.Fresh ticket := by
  rw [fresh_iff] at fresh ⊢
  rwa [same.tickets, same.closings]

theorem SameCustody.find? (same : SameCustody r s) (path : String) : s.find? path = r.find? path := by
  rw [Registry.find?, Registry.find?, same.cached]

/-- A visit that leaves gives its ticket back. -/
theorem Ticketed.fresh_leave (ticketed : Ticketed r) (hv : v ∈ r.visits) :
    (r.leave v).1.Fresh v.ticket :=
  (sameCustody_leave ticketed.tickets.of_append_left v).fresh (ticketed.fresh_remove hv)

/-- What an operation has left to close when it begins. -/
theorem mem_closings_close {stale : List ConsoleId} (some : stale ≠ []) (ticket : Ticket) :
    ⟨ticket, stale⟩ ∈ (r.close ticket stale).closings := by
  rw [close, if_neg fun none ↦ some (List.isEmpty_iff.mp none)]
  exact List.mem_append_right _ (List.mem_singleton_self _)

/-- An operation ends when it has closed its last console. -/
theorem Ticketed.not_mem_closings_closed (ticketed : Ticketed r)
    (mem : ⟨ticket, [id]⟩ ∈ r.closings) : ∀ c ∈ (r.closed ticket).closings, c.ticket ≠ ticket := by
  intro c hc same
  rw [closings_closed, List.mem_filterMap] at hc
  obtain ⟨d, hd, next⟩ := hc
  split at next
  · next here =>
    have one : d = ⟨ticket, [id]⟩ :=
      List.inj_on_of_nodup_map ticketed.tickets.of_append_right hd mem here
    rw [one] at next
    cases next
  · next other => exact other (Option.some.inj next ▸ same)

/-- An operation that has closed one of several consoles has the others left. -/
theorem mem_closings_closed {next : ConsoleId} {rest : List ConsoleId}
    (mem : ⟨ticket, id :: next :: rest⟩ ∈ r.closings) :
    ⟨ticket, next :: rest⟩ ∈ (r.closed ticket).closings := by
  rw [closings_closed]
  exact List.mem_filterMap.mpr ⟨_, mem, if_pos rfl⟩

namespace Fleet

variable {fleet last : Fleet} {bound : Nat} {happenings more ending : List Happening}

/-- An operation closes everything that it has to close. -/
theorem Accounted.closeAll (h : Accounted bound fleet) {stale : List ConsoleId} (some : stale ≠ [])
    (mem : ⟨ticket, stale⟩ ∈ fleet.registry.closings) :
    ∃ last, Run fleet (stale.map fun _ ↦ .event (.closed ticket)) last ∧
      last.registry.cached = fleet.registry.cached ∧
      last.registry.visits = fleet.registry.visits ∧
      ∀ c ∈ last.registry.closings, c.ticket ≠ ticket := by
  induction stale generalizing fleet with
  | nil => exact absurd rfl some
  | cons id rest ih =>
    have enabled : fleet.Enabled (.event (.closed ticket)) := ⟨⟨_, mem, rfl⟩, rfl⟩
    cases rest with
    | nil =>
      exact ⟨_, .step enabled (.done _), rfl, rfl, h.ticketed.not_mem_closings_closed mem⟩
    | cons next rest =>
      obtain ⟨last, run, cached, visits, past⟩ :=
        ih (h.perform enabled) (List.cons_ne_nil next rest) (mem_closings_closed mem)
      exact ⟨last, .step enabled run, cached, visits, past⟩

/-! ### Returns -/

/-- A visit to a path is about to give a console back. It does so after these happenings, which nothing
else comes between. -/
inductive Returns (fleet : Fleet) (ticket : Ticket) (path : String) (id : ConsoleId) :
    List Happening → Prop where
  /-- The visit finds the console when it comes. -/
  | found : fleet.registry.Fresh ticket → (fleet.registry.arrive ticket path).2 = .found id →
      Returns fleet ticket path id [.event (.arrive ticket path)]
  /-- The visit finds the console after it has waited. -/
  | foundLater : fleet.registry.path? ticket = some path →
      (fleet.registry.resume ticket).2.1 = .found id →
      Returns fleet ticket path id [.event (.turn ticket)]
  /-- The visit has built the console, and closes those that have to make room for it. -/
  | built : fleet.registry.path? ticket = some path →
      fleet.registry.stage? ticket = some (.building (some id)) →
      Returns fleet ticket path id
        (.event (.keep ticket) ::
          (fleet.registry.keep ticket id).2.1.map fun _ ↦ .event (.closed ticket))

/-- The visit with a ticket has ended, and the path has the console. -/
structure Returned (ticket : Ticket) (path : String) (id : ConsoleId) (last : Fleet) : Prop where
  found : last.registry.find? path = some id
  fresh : last.registry.Fresh ticket

/-- A newcomer finds the console and gives it back. -/
theorem Accounted.returned_found (h : Accounted bound fleet) (fresh : fleet.registry.Fresh ticket)
    (found : (fleet.registry.arrive ticket path).2 = .found id) :
    Returned ticket path id (fleet.perform (.event (.arrive ticket path))) := by
  have known := find?_of_arrive_found found
  have touched : (fleet.perform (.event (.arrive ticket path))).registry =
      fleet.registry.touch path id := congrArg Prod.fst (arrive_of_found known)
  constructor
  · rw [touched, find?_touch h.sound.cachedKeys, if_pos rfl]
  · rw [touched]
    exact fresh

/-- A visit that has waited finds the console and gives it back. -/
theorem Accounted.returned_foundLater (h : Accounted bound fleet)
    (here : fleet.registry.path? ticket = some path)
    (found : (fleet.registry.resume ticket).2.1 = .found id) :
    fleet.Enabled (.event (.turn ticket)) ∧
      Returned ticket path id (fleet.perform (.event (.turn ticket))) := by
  obtain ⟨v, visit, woken, known⟩ := exists_of_resume_found found
  obtain ⟨hv, rfl⟩ := h.sound.visit?_eq_some_iff.mp visit
  rw [path?_of_mem h.sound hv, Option.some.injEq] at here
  subst here
  have touched := h.sound.touch v.path id
  have after : (fleet.perform (.event (.turn v.ticket))).registry =
      ((fleet.registry.touch v.path id).leave v).1 := resume_found visit woken known
  refine ⟨⟨?_, rfl⟩, ?_, ?_⟩
  · rw [Registry.Enabled, stage?_of_mem h.sound hv, woken]
    rfl
  · rw [after, (sameCustody_leave touched.tickets v).find?]
    show (fleet.registry.touch v.path id).find? v.path = some id
    rw [find?_touch h.sound.cachedKeys, if_pos rfl]
  · rw [after]
    exact (h.ticketed.with_cached _).fresh_leave (r := fleet.registry.touch v.path id) hv

/-- A visit puts the console that it has built into the cache, closes what has to go and gives the console
back. -/
theorem Accounted.returned_built (h : Accounted bound fleet)
    (here : fleet.registry.path? ticket = some path)
    (stage : fleet.registry.stage? ticket = some (.building (some id))) :
    ∃ last, Run fleet (.event (.keep ticket) ::
        (fleet.registry.keep ticket id).2.1.map fun _ ↦ .event (.closed ticket)) last ∧
      Returned ticket path id last := by
  obtain ⟨v, visit, started⟩ := Option.map_eq_some_iff.mp stage
  obtain ⟨hv, rfl⟩ := h.sound.visit?_eq_some_iff.mp visit
  rw [path?_of_mem h.sound hv, Option.some.injEq] at here
  subst here
  have enabled : fleet.Enabled (.event (.keep v.ticket)) := by
    refine ⟨?_, rfl⟩
    rw [Registry.Enabled, stage]
    rfl
  have stale : (fleet.registry.keep v.ticket id).2.1 = (fleet.registry.insert v.path id).2 := by
    rw [keep, visit]
  have kept : (fleet.perform (.event (.keep v.ticket))).registry =
      ((fleet.registry.insert v.path id).1.leave v).1.close v.ticket
        (fleet.registry.insert v.path id).2 := by
    rw [Fleet.perform, Registry.perform, stage]
    exact keep_eq visit id
  have found : (fleet.perform (.event (.keep v.ticket))).registry.find? v.path = some id := by
    rw [← h.sound.find?_insert_self v.path id]
    exact h.sound.find?_keep hv started v.path
  -- The visit has left before anything is closed.
  have inserted : Ticketed (fleet.registry.insert v.path id).1 :=
    (sameCustody_insert fleet.registry v.path id).ticketed (h.ticketed.with_cached _)
  have fresh := inserted.fresh_leave (insert_visits fleet.registry v.path id ▸ hv)
  rw [stale]
  cases due : (fleet.registry.insert v.path id).2 with
  | nil =>
    refine ⟨_, .step enabled (.done _), found, ?_⟩
    rw [kept, due]
    exact fresh
  | cons first rest =>
    have some : first :: rest ≠ [] := List.cons_ne_nil first rest
    have begun : ⟨v.ticket, first :: rest⟩ ∈
        (fleet.perform (.event (.keep v.ticket))).registry.closings := by
      rw [kept, due]
      exact mem_closings_close some v.ticket
    obtain ⟨last, run, cached, visits, past⟩ := (h.perform enabled).closeAll some begun
    refine ⟨last, .step enabled run, ?_, ?_, past⟩
    · rw [← found, find?, find?, cached]
    · rw [visits, kept]
      exact fresh.1

/-- **A visit gives back a console that is cached and alive.** Wherever a visit is about to give a console
back, be it found at once, found after waiting or built, the visit does end, and at this moment the console
is the cached one of the path, it is open and mounted, and nothing of the visit is left. -/
theorem returned_console_is_cached {bound : Int} {start : Registry} (made : make bound = .ok start)
    (run : Run ⟨start, []⟩ happenings fleet) (returns : fleet.Returns ticket path id ending) :
    Run fleet ending (fleet.after ending) ∧
      (fleet.after ending).registry.find? path = some id ∧
      (∃ console, (fleet.after ending).consoles[id]? = some console ∧
        console.isOpen = true ∧ console.isMounted = true) ∧
      (fleet.after ending).registry.Fresh ticket := by
  have h := run.accounted made
  obtain ⟨last, ended, returned⟩ :
      ∃ last, Run fleet ending last ∧ Returned ticket path id last := by
    cases returns with
    | found fresh found =>
      exact ⟨_, .step ⟨fresh, rfl⟩ (.done _), h.returned_found fresh found⟩
    | foundLater here found =>
      obtain ⟨enabled, returned⟩ := h.returned_foundLater here found
      exact ⟨_, .step enabled (.done _), returned⟩
    | built here stage => exact h.returned_built here stage
  have cached : id ∈ last.registry.cachedConsoles :=
    List.mem_map.mpr ⟨(path, id), Assoc.mem_of_get?_eq_some returned.found, rfl⟩
  rw [ended.after_eq]
  exact ⟨ended, returned.found, (ended.keepsAccounts h).alive cached, returned.fresh⟩

/-- In a registry with room for one console a visit has built one while another visit waits. The first
visit puts it into the cache, closes the console of the other path that has to go, and gives its own back;
the second visit then finds it at its turn. -/
theorem console_is_returned_twice :
    ∃ (start : Registry) (fleet last : Fleet), make 1 = .ok start ∧
      Run ⟨start, []⟩
        [.event (.arrive 0 "/a"),
          .made 0 (.ofPanels "/a" true [.make "POST" "/a" true] default), .event (.keep 0),
          .event (.arrive 1 "/b"), .event (.arrive 2 "/b"),
          .made 1 (.ofPanels "/b" true [.make "POST" "/b" true] default)] fleet ∧
      fleet.Returns 1 "/b" 1 [.event (.keep 1), .event (.closed 1)] ∧
      Run fleet [.event (.keep 1), .event (.closed 1)] last ∧
      last.registry.find? "/b" = some 1 ∧ last.registry.Fresh 1 ∧
      last.Returns 2 "/b" 1 [.event (.turn 2)] ∧
      (last.after [.event (.turn 2)]).registry.find? "/b" = some 1 ∧
      ∃ console, (last.after [.event (.turn 2)]).consoles[1]? = some console ∧
        console.isOpen = true ∧ console.isMounted = true := by
  have made : make 1 = .ok ⟨1, by decide, [], [], 0, [], []⟩ := rfl
  have build : Run ⟨⟨1, by decide, [], [], 0, [], []⟩, []⟩
      [.event (.arrive 0 "/a"),
        .made 0 (.ofPanels "/a" true [.make "POST" "/a" true] default), .event (.keep 0),
        .event (.arrive 1 "/b"), .event (.arrive 2 "/b"),
        .made 1 (.ofPanels "/b" true [.make "POST" "/b" true] default)] _ :=
    .step ⟨by decide, rfl⟩ (.step ⟨by decide, rfl, rfl⟩ (.step ⟨by decide, rfl⟩
      (.step ⟨by decide, rfl⟩ (.step ⟨by decide, rfl⟩ (.step ⟨by decide, rfl, rfl⟩ (.done _))))))
  obtain ⟨first, found, -, past⟩ :=
    @returned_console_is_cached 1 "/b" 1 _ _ _ _ _ made build (.built rfl rfl)
  obtain ⟨-, again, alive, -⟩ :=
    @returned_console_is_cached 2 "/b" 1 _ _ _ _ _ made (build.append first) (.foundLater rfl rfl)
  exact ⟨_, _, _, made, build, .built rfl rfl, first, found, past, .foundLater rfl rfl, again, alive⟩

end Fleet

end VerbForms.Registry
