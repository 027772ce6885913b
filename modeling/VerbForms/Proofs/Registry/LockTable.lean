import VerbForms.Proofs.Registry.Calm
import VerbForms.Proofs.Registry.Handover

/-!
# The lock table

A path gets its lock when a visit arrives and loses it when it has no console and nobody holds the lock:
where a visit leaves, where a console is evicted or reset, and where all consoles are taken out. Together
these places keep the table from growing: each lock in it belongs to a path with a console or to a visit
that has not ended.
-/

namespace VerbForms.Registry

variable {r s : Registry} {v : Visit} {ticket : Ticket} {path : String} {lock : LockId}
variable {console : ConsoleId} {event : Event} {events : List Event} {entry : String × LockId}

/-- The paths of the visits with their locks. -/
def seats (r : Registry) : List (String × LockId) := r.visits.map fun v ↦ (v.path, v.lock)

/-- An entry of the lock table is in use: its path has a console, or a visit to it uses its lock. -/
def InUse (r : Registry) (entry : String × LockId) : Prop :=
  entry.1 ∈ Assoc.keys r.cached ∨ entry ∈ r.seats

/-- All entries of the lock table are in use. -/
def LocksInUse (r : Registry) : Prop := ∀ entry ∈ r.locks, r.InUse entry

/-- All entries of the lock table are in use, but for one perhaps. -/
def LocksInUseBut (r : Registry) (entry : String × LockId) : Prop :=
  ∀ other ∈ r.locks, other ≠ entry → r.InUse other

theorem InUse.mono (h : r.InUse entry) (cached : Assoc.keys r.cached ⊆ Assoc.keys s.cached)
    (seats : r.seats ⊆ s.seats) : s.InUse entry :=
  h.imp (fun mem ↦ cached mem) fun mem ↦ seats mem

/-- No lock is added, and no path loses its console or its visits. -/
theorem LocksInUse.mono (h : LocksInUse r) (locks : s.locks ⊆ r.locks)
    (cached : Assoc.keys r.cached ⊆ Assoc.keys s.cached) (seats : r.seats ⊆ s.seats) : LocksInUse s :=
  fun entry mem ↦ (h entry (locks mem)).mono cached seats

/-! ### Visits -/

theorem seats_setStage (r : Registry) (ticket : Ticket) (stage : Stage) :
    (r.setStage ticket stage).seats = r.seats := by
  rw [seats, seats, setStage, List.map_map]
  apply List.map_congr_left
  intro v _
  rw [Function.comp_apply]
  split <;> rfl

theorem LocksInUse.setStage (h : LocksInUse r) (ticket : Ticket) (stage : Stage) :
    LocksInUse (r.setStage ticket stage) :=
  h.mono (List.Subset.refl _) (List.Subset.refl _)
    (seats_setStage r ticket stage ▸ List.Subset.refl _)

/-- A visit that goes may leave its lock without use. -/
theorem LocksInUse.remove (h : LocksInUse r) (tickets : (r.visits.map Visit.ticket).Nodup)
    (hv : v ∈ r.visits) : LocksInUseBut (r.remove v.ticket) (v.path, v.lock) := by
  intro entry mem other
  refine (h entry mem).imp_right fun seat ↦ ?_
  obtain ⟨u, hu, rfl⟩ := List.mem_map.mp seat
  refine List.mem_map.mpr ⟨u, List.mem_filter.mpr ⟨hu, bne_iff_ne.mpr fun same ↦ ?_⟩, rfl⟩
  exact other (by rw [List.inj_on_of_nodup_map tickets hu hv same])

theorem LocksInUseBut.wakeFirst (h : LocksInUseBut r entry) (lock : LockId) :
    LocksInUseBut (r.wakeFirst lock).1 entry := by
  rcases wakeFirst_eq r lock with same | ⟨first, -, -, woken⟩
  · rwa [same]
  · rw [woken]
    exact fun other mem ne ↦
      (h other mem ne).mono (List.Subset.refl _) (seats_setStage r first.ticket .woken ▸ List.Subset.refl _)

/-! ### Locks that are forgotten -/

/-- A lock that is not in use is forgotten. -/
theorem LocksInUseBut.forgetLock (h : LocksInUseBut r (path, lock)) (sound : Sound r) :
    LocksInUse (r.forgetLock path lock) := by
  rw [Registry.forgetLock]
  split
  · intro entry mem
    refine h entry ((Assoc.erase_sublist r.locks path).subset mem) ?_
    rintro rfl
    have gone := Assoc.get?_erase_self sound.lockKeys path
    exact (Assoc.get?_eq_none_iff _ _).mp gone (List.mem_map_of_mem mem)
  · next kept =>
    intro entry mem
    by_cases same : entry = (path, lock)
    · subst same
      have registered := Assoc.get?_eq_some_of_mem sound.lockKeys mem
      have held : r.held lock = true := by simpa [registered] using kept
      -- Whoever holds a lock visits the path that it belongs to.
      obtain ⟨holder, hh, holds⟩ := List.any_eq_true.mp held
      obtain ⟨owner, visits, table⟩ := sound.owned
      have own : holder.lock = lock := by simpa using (Bool.and_eq_true_iff.mp holds).1
      have here : holder.path = path := by rw [visits holder hh, own, ← table _ mem]
      exact .inr (List.mem_map.mpr ⟨holder, hh, by rw [here, own]⟩)
    · exact h entry mem same

/-- A visit leaves the lock of its path in order, whether the path has a console or not. -/
theorem LocksInUseBut.tidy (h : LocksInUseBut r (path, lock)) (sound : Sound r) :
    LocksInUse (r.tidy path lock) := by
  rw [Registry.tidy]
  split
  · next cached =>
    intro entry mem
    by_cases same : entry = (path, lock)
    · exact .inl ((Assoc.mem_keys_iff r.cached entry.1).mpr (same ▸ cached))
    · exact h entry mem same
  · exact h.forgetLock sound

/-- The lock of a path that has lost its console is forgotten unless somebody holds it. -/
theorem locksInUse_forgetLockOf (sound : Sound r)
    (others : ∀ entry ∈ r.locks, entry.1 ≠ path → r.InUse entry) : LocksInUse (r.forgetLockOf path) := by
  rw [forgetLockOf]
  split
  · next lock registered =>
    refine LocksInUseBut.forgetLock (fun entry mem other ↦ others entry mem fun here ↦ ?_) sound
    subst here
    have same := Assoc.get?_eq_some_of_mem sound.lockKeys mem
    rw [registered] at same
    exact other (by rw [Option.some.inj same])
  · next none =>
    intro entry mem
    refine others entry mem fun here ↦ ?_
    exact (Assoc.get?_eq_none_iff _ _).mp none (here ▸ List.mem_map_of_mem mem)

/-! ### Leaving -/

/-- A visit that holds its lock or has been woken leaves. -/
theorem LocksInUse.leave (h : LocksInUse r) (sound : Sound r) (hv : v ∈ r.visits)
    (active : v.stage.isPassive = false) : LocksInUse (r.leave v).1 :=
  ((h.remove sound.tickets hv).wakeFirst v.lock).tidy
    (sound.remove_wakeFirst hv (sound.held_remove hv active))

/-- A cancelled visit leaves the queue. -/
theorem LocksInUse.quit (h : LocksInUse r) (sound : Sound r) (hv : v ∈ r.visits) :
    LocksInUse (r.quit v).1 := by
  have removed := h.remove sound.tickets hv
  cases held : (r.remove v.ticket).held v.lock with
  | true =>
    rw [quit_of_held held]
    exact removed.tidy (sound.remove_of_held hv held)
  | false =>
    rw [quit_of_free held]
    exact (removed.wakeFirst v.lock).tidy (sound.remove_wakeFirst hv held)

/-! ### Consoles -/

theorem LocksInUse.touch (h : LocksInUse r) (path : String) (console : ConsoleId) :
    LocksInUse (r.touch path console) := by
  refine h.mono (List.Subset.refl _) (fun key mem ↦ ?_) (List.Subset.refl _)
  rw [Assoc.mem_keys_iff, Registry.touch, Assoc.get?_append]
  by_cases here : path = key
  · simp [here, Assoc.get?]
  · rw [Assoc.get?_erase_of_ne here, Option.isSome_or, (Assoc.mem_keys_iff _ _).mp mem, Bool.true_or]

/-- A console is taken out, and so is the lock of its path. -/
theorem LocksInUse.erase (h : LocksInUse r) (sound : Sound r) (path : String) :
    LocksInUse ({ r with cached := Assoc.erase r.cached path }.forgetLockOf path) := by
  have keys := sound.cachedKeys.sublist (Assoc.keys_erase_sublist r.cached path)
  refine locksInUse_forgetLockOf (sound.of_tables r.closings keys (List.Sublist.refl r.locks)) ?_
  refine fun entry mem other ↦ (h entry mem).imp_left fun cached ↦ ?_
  rw [Assoc.mem_keys_iff] at cached ⊢
  rwa [Assoc.get?_erase_of_ne other.symm]

theorem LocksInUse.evict (h : LocksInUse r) (sound : Sound r) (entries : List (String × ConsoleId))
    (cached : r.cached = entries) : LocksInUse (r.evict entries).1 := by
  induction entries generalizing r with
  | nil => exact h
  | cons entry rest ih =>
    obtain ⟨path, console⟩ := entry
    have erased : Assoc.erase r.cached path = rest := by rw [cached, Assoc.erase, if_pos rfl]
    have left := erased ▸ h.erase sound path
    have keys : (Assoc.keys rest).Nodup :=
      erased ▸ sound.cachedKeys.sublist (Assoc.keys_erase_sublist r.cached path)
    have fewer := sound.of_tables r.closings keys (List.Sublist.refl r.locks)
    rw [Registry.evict]
    split
    · exact ih left (fewer.forgetLockOf path) (forgetLockOf_cached _ path)
    · exact h

theorem LocksInUse.insert (h : LocksInUse r) (sound : Sound r) (path : String) (console : ConsoleId) :
    LocksInUse (r.insert path console).1 :=
  (h.touch path console).evict (sound.touch path console) _ rfl

theorem LocksInUse.of_closings (h : LocksInUse r) (closings : List Closing) :
    LocksInUse { r with closings } :=
  h.mono (List.Subset.refl _) (List.Subset.refl _) (List.Subset.refl _)

/-! ### Events -/

theorem mem_locks_lockFor (mem : entry ∈ (r.lockFor path).1.locks) :
    entry ∈ r.locks ∨ entry = (path, (r.lockFor path).2) := by
  rw [lockFor] at mem ⊢
  split at mem
  · exact .inl mem
  · exact (List.mem_append.mp mem).imp_right List.mem_singleton.mp

/-- A newcomer uses the lock that it is given. -/
theorem LocksInUse.newcomer (h : LocksInUse r) (path : String) (ticket : Ticket) (stage : Stage) :
    LocksInUse { (r.lockFor path).1 with
      visits := (r.lockFor path).1.visits ++ [⟨ticket, path, (r.lockFor path).2, stage⟩] } := by
  rw [lockFor_visits]
  intro entry mem
  rcases mem_locks_lockFor mem with old | rfl
  · refine (h entry old).mono ?_ ?_
    · rw [lockFor_cached]
      exact List.Subset.refl _
    · rw [seats, seats, List.map_append]
      exact List.subset_append_left _ _
  · exact .inr (List.mem_map.mpr ⟨_, List.mem_append_right _ (List.mem_singleton_self _), rfl⟩)

theorem LocksInUse.arrive (h : LocksInUse r) (ticket : Ticket) (path : String) :
    LocksInUse (r.arrive ticket path).1 := by
  rw [Registry.arrive]
  split
  · exact h.touch path _
  · dsimp only
    split
    · exact h.newcomer path ticket _
    · exact h.newcomer path ticket _

theorem LocksInUse.resume (h : LocksInUse r) (sound : Sound r)
    {result : Registry × TurnEnd × Option Ticket} (resumes : r.Resumes ticket result) :
    LocksInUse result.1 := by
  cases resumes with
  | found mem woken => exact (h.touch _ _).leave (sound.touch _ _) mem (by rw [woken]; rfl)
  | builds => exact h.setStage _ _
  | quits mem => exact h.quit sound mem

theorem LocksInUse.cancel (h : LocksInUse r) (ticket : Ticket) : LocksInUse (r.cancel ticket).1 := by
  rw [Registry.cancel]
  split
  · exact h.setStage ticket _
  · exact h.setStage ticket _
  · exact h

/-- Every event keeps the locks of the table in use. -/
theorem LocksInUse.perform (h : LocksInUse r) (sound : Sound r) (enabled : r.Enabled event) :
    LocksInUse (r.perform event) := by
  cases event with
  | arrive ticket path => exact h.arrive ticket path
  | turn ticket => exact h.resume sound (sound.resumes enabled)
  | cancel ticket => exact h.cancel ticket
  | made ticket console => exact h.setStage ticket _
  | keep ticket =>
    obtain ⟨v, hv, rfl, found, starts⟩ := sound.exists_of_stage? enabled
    obtain ⟨console, stage⟩ := Stage.eq_of_starts starts
    rw [Registry.perform, stage?, found, Option.map_some, stage]
    dsimp only
    rw [keep_eq found]
    have inserted := h.insert sound v.path console
    refine (inserted.leave (sound.insert v.path console) ?_ (by rw [stage]; rfl)).of_closings _
    rwa [insert_visits]
  | fail ticket =>
    rw [Registry.perform, Registry.fail]
    split
    · exact h.setStage ticket _
    · exact h
  | giveUp ticket =>
    obtain ⟨v, hv, rfl, found, ends⟩ := sound.exists_of_stage? enabled
    rw [Registry.perform, Registry.giveUp, found]
    exact h.leave sound hv (Stage.not_isPassive_of_holds (Stage.holds_of_canGiveUp ends))
  | reset ticket path =>
    rw [Registry.perform, reset_eq]
    exact (h.erase sound path).of_closings _
  | clear ticket => exact List.forall_mem_nil _
  | closed ticket => exact h.of_closings _

theorem locksInUse_make {bound : Int} (made : make bound = .ok r) : LocksInUse r := by
  rw [make] at made
  split at made
  · cases made
    exact List.forall_mem_nil _
  · cases made

theorem Run.locksInUse {bound : Int} {start : Registry} (made : make bound = .ok start)
    (run : Run start events r) : LocksInUse r := by
  have kept := run.preserves (P := fun r ↦ Sound r ∧ LocksInUse r)
    (fun _ _ h enabled ↦ ⟨h.1.perform enabled, h.2.perform h.1 enabled⟩)
    ⟨sound_make made, locksInUse_make made⟩
  exact kept.2

/-- Where there are no visits, every lock belongs to a path with a console. -/
theorem LocksInUse.length_le (h : LocksInUse r) (sound : Sound r) (idle : r.visits = []) :
    r.locks.length ≤ r.cached.length := by
  have cached : Assoc.keys r.locks ⊆ Assoc.keys r.cached := by
    intro key mem
    obtain ⟨entry, registered, rfl⟩ := List.mem_map.mp mem
    refine (h entry registered).resolve_right fun seat ↦ ?_
    rw [seats, idle] at seat
    exact List.not_mem_nil seat
  have length_le := (List.subperm_of_subset sound.lockKeys cached).length_le
  rwa [Assoc.keys, Assoc.keys, List.length_map, List.length_map] at length_le

/-- **The lock table does not leak.** In every run of a registry each path in the lock table has a console,
or a visit to it has not ended and uses the lock that is registered. Where all visits have ended there
are no more locks than the bound. -/
theorem lock_table_does_not_leak {bound : Int} {start : Registry} (made : make bound = .ok start)
    (run : Run start events r) :
    (∀ path lock, (path, lock) ∈ r.locks →
      (r.find? path).isSome = true ∨ ∃ v ∈ r.visits, v.path = path ∧ v.lock = lock) ∧
      (r.visits = [] → (r.locks.length : Int) ≤ bound) := by
  have h := run.locksInUse made
  refine ⟨fun path lock mem ↦ ?_, fun idle ↦ ?_⟩
  · refine (h _ mem).imp (fun cached ↦ (Assoc.mem_keys_iff _ _).mp cached) fun seat ↦ ?_
    obtain ⟨v, hv, same⟩ := List.mem_map.mp seat
    exact ⟨v, hv, congrArg Prod.fst same, congrArg Prod.snd same⟩
  · have roomy := (run.roomy made).length_le
    have fewer := h.length_le (run.sound made) idle
    have positive := bound_of_make made
    omega

/-- In a registry with room for one console a build fails while another visit waits, that visit fails at
its turn, and the console of a third path puts out the first one: one lock is left of three paths. -/
theorem one_lock_is_left :
    ∃ start r : Registry, make 1 = .ok start ∧
      Run start
        [.arrive 0 "/a", .made 0 0, .keep 0, .arrive 1 "/b", .arrive 2 "/b", .giveUp 1, .turn 2,
          .giveUp 2, .arrive 3 "/c", .made 3 1, .keep 3] r ∧
      r.visits = [] ∧ (r.locks.length : Int) ≤ 1 ∧ r.locks = [("/c", 2)] ∧
      ((r.find? "/c").isSome = true ∨ ∃ v ∈ r.visits, v.path = "/c" ∧ v.lock = 2) := by
  have made : make 1 = .ok ⟨1, by decide, [], [], 0, [], []⟩ := rfl
  have run : Run ⟨1, by decide, [], [], 0, [], []⟩
      [.arrive 0 "/a", .made 0 0, .keep 0, .arrive 1 "/b", .arrive 2 "/b", .giveUp 1, .turn 2,
        .giveUp 2, .arrive 3 "/c", .made 3 1, .keep 3]
      ⟨1, by decide, [("/c", 1)], [("/c", 2)], 3, [], [⟨3, [0]⟩]⟩ :=
    .step (by decide) (.step (by decide) (.step (by decide) (.step (by decide) (.step (by decide)
      (.step (by decide) (.step (by decide) (.step (by decide) (.step (by decide) (.step (by decide)
        (.step (by decide) (.done _)))))))))))
  obtain ⟨used, idle⟩ := lock_table_does_not_leak made run
  exact ⟨_, _, made, run, rfl, idle rfl, rfl, used "/c" 2 (by decide)⟩

end VerbForms.Registry
