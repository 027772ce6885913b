import VerbForms.Proofs.Registry.Sound

/-!
# Registries without queues

As long as no two visits to one path come at a time, every visit finds a console or builds it at once.
Each operation is described by what it does to the cache and to the visits; the locks only have to stay
sound.
-/

namespace VerbForms.Registry

variable {r s : Registry} {v : Visit} {ticket : Ticket} {path : String} {console : ConsoleId}

/-- Nobody waits for a lock, and nothing is left to be closed. -/
structure Calm (r : Registry) : Prop where
  sound : Sound r
  holds : ∀ v ∈ r.visits, v.stage.holds = true
  closings : r.closings = []

/-- The visits other than the one with the ticket stay. -/
def OthersStay (ticket : Ticket) (r s : Registry) : Prop :=
  ∀ v : Visit, v.ticket ≠ ticket → (v ∈ s.visits ↔ v ∈ r.visits)

theorem OthersStay.of_eq (same : s.visits = r.visits) : OthersStay ticket r s :=
  fun _ _ ↦ by rw [same]

theorem OthersStay.trans {t : Registry} (h : OthersStay ticket r s) (more : OthersStay ticket s t) :
    OthersStay ticket r t :=
  fun v other ↦ (more v other).trans (h v other)

theorem othersStay_setStage (r : Registry) (ticket : Ticket) (stage : Stage) :
    OthersStay ticket r (r.setStage ticket stage) := by
  intro v other
  refine ⟨fun mem ↦ ?_, fun mem ↦ List.mem_map.mpr ⟨v, mem, if_neg other⟩⟩
  obtain ⟨u, hu, rfl⟩ := List.mem_map.mp mem
  split at other
  · next same => exact absurd same other
  · next different => rwa [if_neg different]

theorem othersStay_remove (r : Registry) (ticket : Ticket) : OthersStay ticket r (r.remove ticket) :=
  fun _ other ↦ List.mem_filter.trans (and_iff_left (bne_iff_ne.mpr other))

theorem not_mem_remove (r : Registry) (ticket : Ticket) :
    ∀ v ∈ (r.remove ticket).visits, v.ticket ≠ ticket :=
  fun _ mem ↦ bne_iff_ne.mp (List.mem_filter.mp mem).2

theorem mem_setStage (hv : v ∈ r.visits) (stage : Stage) :
    { v with stage } ∈ (r.setStage v.ticket stage).visits :=
  List.mem_map.mpr ⟨v, hv, if_pos rfl⟩

/-- A new registry is calm: it has no visits and keeps no consoles. -/
theorem calm_make {bound : Int} (made : make bound = .ok r) : Calm r ∧ r.visits = [] ∧ r.cached = [] := by
  have sound := sound_make made
  rw [make] at made
  split at made
  · cases made
    exact ⟨⟨sound, List.forall_mem_nil _, rfl⟩, rfl, rfl⟩
  · cases made

/-! ### Arrivals -/

theorem arrive_of_found (found : r.find? path = some console) :
    r.arrive ticket path = (r.touch path console, .found console) := by
  rw [arrive, found]

theorem Calm.touch (h : Calm r) (path : String) (console : ConsoleId) : Calm (r.touch path console) :=
  ⟨h.sound.touch path console, h.holds, h.closings⟩

/-- The use of a console leaves the cache as it is, but for the order. -/
theorem mem_cached_touch (found : r.find? path = some console) {entry : String × ConsoleId}
    (mem : entry ∈ (r.touch path console).cached) : entry ∈ r.cached := by
  rcases List.mem_append.mp mem with old | new
  · exact (Assoc.erase_sublist r.cached path).subset old
  · rw [List.mem_singleton.mp new]
    exact Assoc.mem_of_get?_eq_some found

theorem lockFor_cached (r : Registry) (path : String) : (r.lockFor path).1.cached = r.cached := by
  rw [lockFor]
  split <;> rfl

/-- A lock that no visit to the path uses is free, as every lock belongs to one path. -/
theorem isFree_of_alone (h : Sound r) {lock : LockId} (registered : (path, lock) ∈ r.locks)
    (alone : ∀ v ∈ r.visits, v.path ≠ path) : r.isFree lock = true := by
  have unused : ∀ v ∈ r.visits, (v.lock == lock) = false := by
    intro v hv
    obtain ⟨owner, visits, locks⟩ := h.owned
    refine beq_eq_false_iff_ne.mpr fun same ↦ alone v hv ?_
    rw [visits v hv, same, ← locks _ registered]
  have unheld : r.held lock = false := by
    rw [held, List.any_eq_false]
    intro v hv
    simp [unused v hv]
  have empty : r.queue lock = [] := by
    refine List.filter_eq_nil_iff.mpr fun v hv ↦ ?_
    simp [unused v hv]
  rw [isFree, unheld, empty]
  rfl

/-- The first visit to a path that has no console builds it at once. -/
theorem Calm.arrive_of_alone (h : Calm r) (absent : r.find? path = none)
    (alone : ∀ v ∈ r.visits, v.path ≠ path) (fresh : ∀ v ∈ r.visits, v.ticket ≠ ticket) :
    ∃ lock s, r.arrive ticket path = (s, .builds) ∧ Calm s ∧ s.cached = r.cached ∧
      s.visits = r.visits ++ [⟨ticket, path, lock, .building none⟩] := by
  have visits := lockFor_visits r path
  have locked := h.sound.lockFor path
  have registered := Assoc.mem_of_get?_eq_some (get?_lockFor r path)
  have free : (r.lockFor path).1.isFree (r.lockFor path).2 = true :=
    isFree_of_alone locked registered (visits.symm ▸ alone)
  have unused : (r.lockFor path).1.Fresh ticket := by
    refine ⟨visits.symm ▸ fresh, ?_⟩
    rw [lockFor_closings, h.closings]
    exact List.forall_mem_nil _
  have sound := locked.newcomer (v := ⟨ticket, path, (r.lockFor path).2, .building none⟩) unused registered
    (.take (withdrawn_of_isFree free) rfl)
  refine ⟨(r.lockFor path).2, { (r.lockFor path).1 with
    visits := (r.lockFor path).1.visits ++ [⟨ticket, path, (r.lockFor path).2, .building none⟩] },
    ?_, ⟨sound, ?_, (lockFor_closings r path).trans h.closings⟩, lockFor_cached r path, by rw [visits]⟩
  · rw [arrive, absent]
    dsimp only
    rw [if_pos free]
  · rw [visits]
    intro v hv
    rcases List.mem_append.mp hv with old | new
    · exact h.holds v old
    · rw [List.mem_singleton.mp new]
      rfl

/-! ### Departures -/

/-- Only locks are forgotten. -/
theorem forgetLock_with (r : Registry) (path : String) (lock : LockId) :
    ∃ locks, r.forgetLock path lock = { r with locks } := by
  rcases forgetLock_eq r path lock with same | ⟨-, -, same⟩
  · exact ⟨r.locks, same⟩
  · exact ⟨_, same⟩

theorem forgetLockOf_with (r : Registry) (path : String) :
    ∃ locks, r.forgetLockOf path = { r with locks } := by
  rw [forgetLockOf]
  split
  · exact r.forgetLock_with path _
  · exact ⟨r.locks, rfl⟩

theorem tidy_with (r : Registry) (path : String) (lock : LockId) :
    ∃ locks, r.tidy path lock = { r with locks } := by
  rw [tidy]
  split
  · exact ⟨r.locks, rfl⟩
  · exact r.forgetLock_with path lock

/-- What a visit leaves behind. -/
structure Left (ticket : Ticket) (r s : Registry) : Prop where
  others : OthersStay ticket r s
  gone : ∀ v ∈ s.visits, v.ticket ≠ ticket

/-- Where nobody waits a visit that leaves wakes nobody, and nothing else changes but locks. -/
theorem leave_with (holds : ∀ v ∈ r.visits, v.stage.holds = true) (v : Visit) :
    ∃ locks, r.leave v = ({ r.remove v.ticket with locks }, none) := by
  have empty : (r.remove v.ticket).queue v.lock = [] := by
    refine List.filter_eq_nil_iff.mpr fun u hu ↦ ?_
    simp [holds u (List.mem_of_mem_filter hu)]
  obtain ⟨locks, same⟩ := (r.remove v.ticket).tidy_with v.path v.lock
  exact ⟨locks, by rw [leave, wakeFirst, empty]; exact congrArg (·, none) same⟩

theorem Left.of_visits (same : s.visits = (r.remove ticket).visits) : Left ticket r s where
  others := (othersStay_remove r ticket).trans (.of_eq same)
  gone := same.symm ▸ not_mem_remove r ticket

theorem holds_remove (holds : ∀ v ∈ r.visits, v.stage.holds = true) (ticket : Ticket) :
    ∀ v ∈ (r.remove ticket).visits, v.stage.holds = true :=
  fun v mem ↦ holds v (List.mem_of_mem_filter mem)

theorem Calm.setStage (h : Calm r) (hv : v ∈ r.visits) {stage : Stage} (holds : stage.holds = true) :
    Calm (r.setStage v.ticket stage) := by
  refine ⟨h.sound.setStage_of_holds hv (h.holds v hv) holds, fun u hu ↦ ?_, h.closings⟩
  obtain ⟨old, mem, rfl⟩ := List.mem_map.mp hu
  split
  · exact holds
  · exact h.holds old mem

/-- A visit that gives up leaves the consoles in the cache. -/
theorem Calm.giveUp (h : Calm r) (hv : v ∈ r.visits) :
    ∃ s, r.giveUp v.ticket = (s, none) ∧ Calm s ∧ s.cached = r.cached ∧ Left v.ticket r s := by
  have found := h.sound.visit?_eq_some_iff.mpr ⟨hv, rfl⟩
  have sound := h.sound.leave hv (Stage.not_isPassive_of_holds (h.holds v hv))
  obtain ⟨locks, same⟩ := leave_with h.holds v
  rw [same] at sound
  refine ⟨{ r.remove v.ticket with locks }, ?_, ⟨sound, holds_remove h.holds v.ticket, h.closings⟩, rfl,
    .of_visits rfl⟩
  rw [Registry.giveUp, found]
  exact same

/-- A build that fails leaves the consoles in the cache, and its visit is still there. -/
theorem Calm.fail (h : Calm r) (hv : v ∈ r.visits) :
    Calm (r.fail v.ticket).1 ∧ (r.fail v.ticket).1.cached = r.cached ∧
      OthersStay v.ticket r (r.fail v.ticket).1 ∧
      ∃ u ∈ (r.fail v.ticket).1.visits, u.ticket = v.ticket := by
  rw [Registry.fail]
  split
  · exact ⟨h.setStage hv rfl, rfl, othersStay_setStage r v.ticket _, _, mem_setStage hv _, rfl⟩
  · exact ⟨h, rfl, .of_eq rfl, v, hv, rfl⟩

/-! ### Builds that succeed -/

/-- An eviction takes consoles away and forgets locks. -/
theorem evict_with (entries : List (String × ConsoleId)) (same : r.cached = entries) :
    ∃ cached locks, (r.evict entries).1 = { r with cached, locks } ∧ cached ⊆ r.cached := by
  induction entries generalizing r with
  | nil => exact ⟨r.cached, r.locks, rfl, fun _ mem ↦ mem⟩
  | cons entry rest ih =>
    rw [evict]
    split
    · obtain ⟨locks, forgotten⟩ := { r with cached := rest }.forgetLockOf_with entry.1
      rw [forgotten]
      obtain ⟨cached, locks', evicted, subset⟩ := ih (r := { r with cached := rest, locks }) rfl
      refine ⟨cached, locks', evicted, fun kept mem ↦ ?_⟩
      rw [same]
      exact List.mem_cons_of_mem entry (subset mem)
    · exact ⟨r.cached, r.locks, rfl, fun _ mem ↦ mem⟩

/-- An insertion puts a console at its path, takes others away and forgets locks. -/
theorem insert_with (keys : (Assoc.keys r.cached).Nodup) (path : String) (console : ConsoleId) :
    ∃ cached locks, (r.insert path console).1 = { r with cached, locks } ∧
      ∀ entry ∈ cached, entry = (path, console) ∨ entry ∈ r.cached ∧ entry.1 ≠ path := by
  obtain ⟨cached, locks, evicted, subset⟩ := evict_with (r := r.touch path console) _ rfl
  refine ⟨cached, locks, evicted, fun entry mem ↦ ?_⟩
  rcases List.mem_append.mp (subset mem) with old | new
  · refine .inr ⟨(Assoc.erase_sublist r.cached path).subset old, fun same ↦ ?_⟩
    have gone := (Assoc.get?_eq_none_iff _ _).mp (Assoc.get?_erase_self keys path)
    subst same
    exact gone (List.mem_map_of_mem (f := Prod.fst) old)
  · exact .inl (List.mem_singleton.mp new)

/-- A registry in which an operation has consoles left to close. -/
structure Closes (ticket : Ticket) (stale : List ConsoleId) (r : Registry) : Prop where
  sound : Sound r
  holds : ∀ v ∈ r.visits, v.stage.holds = true
  closings : r.closings = if stale.isEmpty then [] else [⟨ticket, stale⟩]

theorem Closes.calm (h : Closes ticket [] r) : Calm r := ⟨h.sound, h.holds, h.closings⟩

/-- One of the consoles has been closed. -/
theorem Closes.closed {id : ConsoleId} {stale : List ConsoleId} (h : Closes ticket (id :: stale) r) :
    Closes ticket stale (r.closed ticket) := by
  refine ⟨h.sound.of_closings _, h.holds, ?_⟩
  rw [Registry.closed, h.closings]
  cases stale <;> simp

/-- A build that succeeds puts its console into the cache and wakes nobody. -/
theorem Calm.keep (h : Calm r) (hv : v ∈ r.visits) (console : ConsoleId) :
    ∃ s stale, r.keep v.ticket console = (s, stale, none) ∧ Closes v.ticket stale s ∧
      (∀ entry ∈ s.cached, entry = (v.path, console) ∨ entry ∈ r.cached ∧ entry.1 ≠ v.path) ∧
      Left v.ticket r s := by
  have found := h.sound.visit?_eq_some_iff.mpr ⟨hv, rfl⟩
  have kept := h.sound.keep hv (Stage.not_isPassive_of_holds (h.holds v hv)) console
  obtain ⟨cached, locks, inserted, subset⟩ := insert_with h.sound.cachedKeys v.path console
  obtain ⟨locks', same⟩ := leave_with (r := { r with cached, locks }) h.holds v
  rw [Registry.keep, found] at kept ⊢
  dsimp only at kept ⊢
  rw [inserted, same] at kept ⊢
  refine ⟨_, _, rfl, ⟨kept, holds_remove h.holds v.ticket, ?_⟩, subset, .of_visits rfl⟩
  have none : (Registry.remove { r with cached, locks } v.ticket).closings = [] := h.closings
  dsimp only
  rw [none]
  rfl

/-- A reset takes the console of a path away. -/
theorem Calm.reset (h : Calm r) (ticket : Ticket) (path : String) :
    Closes ticket (r.reset ticket path).2.toList (r.reset ticket path).1 ∧
      (∀ entry ∈ (r.reset ticket path).1.cached, entry ∈ r.cached) ∧
      (r.reset ticket path).1.visits = r.visits := by
  have keys := h.sound.cachedKeys.sublist (Assoc.keys_erase_sublist r.cached path)
  have erased := h.sound.of_tables r.closings keys (List.Sublist.refl r.locks)
  have sound := (erased.forgetLockOf path).of_closings
  obtain ⟨locks, same⟩ := { r with cached := Assoc.erase r.cached path }.forgetLockOf_with path
  rw [same] at sound
  rw [Registry.reset, same]
  refine ⟨⟨sound _, h.holds, ?_⟩, (Assoc.erase_sublist r.cached path).subset, rfl⟩
  dsimp only
  rw [h.closings]
  cases r.find? path <;> rfl

end VerbForms.Registry
