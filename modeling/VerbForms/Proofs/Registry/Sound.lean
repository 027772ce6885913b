import VerbForms.Proofs.Assoc
import VerbForms.Proofs.Registry.Line

/-!
# Sound registries

In a sound registry tickets, cached paths and paths with a lock are distinct, every line is
orderly, and each lock belongs to one path. Every event keeps a registry sound, and so does every
run.
-/

namespace VerbForms.Registry

variable {r : Registry} {v : Visit} {lock : LockId} {ticket : Ticket} {path : String}

/-- What holds of a registry after every run. -/
structure Sound (r : Registry) : Prop where
  tickets : (r.visits.map Visit.ticket).Nodup
  lines : ∀ lock, Orderly (r.line lock)
  cachedKeys : (Assoc.keys r.cached).Nodup
  lockKeys : (Assoc.keys r.locks).Nodup
  visitLocks : ∀ v ∈ r.visits, v.lock < r.nextLock
  tableLocks : ∀ entry ∈ r.locks, entry.2 < r.nextLock
  /-- Each lock belongs to one path. -/
  owned : ∃ owner : LockId → String,
    (∀ v ∈ r.visits, v.path = owner v.lock) ∧ ∀ entry ∈ r.locks, entry.1 = owner entry.2

/-- The visits may change as long as their lines stay orderly and no lock gets a new path. -/
theorem Sound.of_visits (h : Sound r) {visits : List Visit}
    (tickets : (visits.map Visit.ticket).Nodup)
    (lines : ∀ lock, Orderly ({ r with visits }.line lock))
    (known : ∀ v ∈ visits, ∃ u ∈ r.visits, u.lock = v.lock ∧ u.path = v.path) :
    Sound { r with visits } := by
  refine ⟨tickets, lines, h.cachedKeys, h.lockKeys, ?_, h.tableLocks, ?_⟩
  · intro v hv
    obtain ⟨u, hu, hl, -⟩ := known v hv
    exact hl ▸ h.visitLocks u hu
  · obtain ⟨owner, hv, he⟩ := h.owned
    refine ⟨owner, fun v hm ↦ ?_, he⟩
    obtain ⟨u, hu, hl, hp⟩ := known v hm
    rw [← hl, ← hp, hv u hu]

/-- Consoles may be taken out or moved, and locks may be forgotten. -/
theorem Sound.of_tables (h : Sound r) {cached : List (String × ConsoleId)}
    {locks : List (String × LockId)} (closings : List Closing)
    (keys : (Assoc.keys cached).Nodup) (fewer : locks.Sublist r.locks) :
    Sound { r with cached, locks, closings } := by
  refine ⟨h.tickets, h.lines, keys, h.lockKeys.sublist (fewer.map Prod.fst), h.visitLocks,
    fun entry hm ↦ h.tableLocks entry (fewer.subset hm), ?_⟩
  obtain ⟨owner, hv, he⟩ := h.owned
  exact ⟨owner, hv, fun entry hm ↦ he entry (fewer.subset hm)⟩

theorem Sound.visit?_eq_some_iff (h : Sound r) :
    r.visit? ticket = some v ↔ v ∈ r.visits ∧ v.ticket = ticket :=
  Registry.visit?_eq_some_iff h.tickets

theorem Sound.exists_line_split (h : Sound r) (hv : v ∈ r.visits) :
    ∃ before after, r.line v.lock = before ++ v :: after ∧
      ∀ u ∈ before ++ after, u.ticket ≠ v.ticket :=
  Registry.exists_line_split h.tickets hv

/-- A visit changes its stage without beginning to wait, to be awake or to let go of the lock. -/
theorem Sound.setStage (h : Sound r) (hv : v ∈ r.visits) {stage : Stage}
    (passive : stage.isPassive = false → v.stage.isPassive = false)
    (holds : v.stage.holds = true → stage.holds = true)
    (waiting : stage = .waiting → v.stage = .waiting) :
    Sound (r.setStage v.ticket stage) := by
  refine h.of_visits ((tickets_setStage r v.ticket stage).symm ▸ h.tickets) ?_ ?_
  · intro lock
    by_cases hl : lock = v.lock
    · obtain ⟨before, after, split, others⟩ := h.exists_line_split hv
      have ho := h.lines v.lock
      rw [split] at ho
      rw [hl]
      exact line_setStage_self stage split others ▸ ho.replace passive holds waiting
    · exact line_setStage_of_ne h.tickets hv stage hl ▸ h.lines lock
  · intro w hw
    obtain ⟨u, hu, rfl⟩ := List.mem_map.mp hw
    refine ⟨u, hu, ?_⟩
    split <;> exact ⟨rfl, rfl⟩

/-! ### Leaving and forgetting -/

theorem tickets_remove (h : (r.visits.map Visit.ticket).Nodup) (ticket : Ticket) :
    ((r.remove ticket).visits.map Visit.ticket).Nodup :=
  h.sublist (List.filter_sublist.map Visit.ticket)

/-- The other visits stay where one leaves. -/
theorem Sound.remove (h : Sound r) (ticket : Ticket)
    (lines : ∀ lock, Orderly ((r.remove ticket).line lock)) : Sound (r.remove ticket) :=
  h.of_visits (tickets_remove h.tickets ticket) lines
    fun u hu ↦ ⟨u, List.mem_of_mem_filter hu, rfl, rfl⟩

/-- A visit leaves its lock, which nobody else holds, and wakes the next one. -/
theorem Sound.remove_wakeFirst (h : Sound r) (hv : v ∈ r.visits)
    (free : (r.remove v.ticket).held v.lock = false) :
    Sound ((r.remove v.ticket).wakeFirst v.lock).1 := by
  have ht := tickets_remove h.tickets v.ticket
  have lines : ∀ lock, Orderly (((r.remove v.ticket).wakeFirst v.lock).1.line lock) := by
    intro lock
    rw [line_wakeFirst ht free]
    split
    · obtain ⟨before, after, split, others⟩ := h.exists_line_split hv
      have ho := h.lines v.lock
      rw [split] at ho
      rw [held_eq_any_line, line_remove_self split others] at free
      rw [line_remove_self split others]
      exact ho.leave free
    · next hl => exact line_remove_of_ne h.tickets hv hl ▸ h.lines lock
  rcases wakeFirst_eq (r.remove v.ticket) v.lock with he | ⟨first, -, -, he⟩
  · rw [he] at lines ⊢
    exact h.remove v.ticket lines
  · rw [he] at lines ⊢
    refine h.of_visits ((tickets_setStage _ first.ticket .woken).symm ▸ ht) lines ?_
    intro w hw
    obtain ⟨u, hu, rfl⟩ := List.mem_map.mp hw
    refine ⟨u, List.mem_of_mem_filter hu, ?_⟩
    split <;> exact ⟨rfl, rfl⟩

/-- A visit leaves the queue of a lock that somebody holds. -/
theorem Sound.remove_of_held (h : Sound r) (hv : v ∈ r.visits)
    (held : (r.remove v.ticket).held v.lock = true) : Sound (r.remove v.ticket) := by
  refine h.remove v.ticket fun lock ↦ ?_
  by_cases hl : lock = v.lock
  · obtain ⟨before, after, split, others⟩ := h.exists_line_split hv
    have ho := h.lines v.lock
    rw [split] at ho
    rw [held_eq_any_line, line_remove_self split others] at held
    rw [hl, line_remove_self split others]
    exact ho.leave_held held
  · exact line_remove_of_ne h.tickets hv hl ▸ h.lines lock

/-- Nobody holds the lock of a visit that held it or had been woken, once it is gone. -/
theorem Sound.held_remove (h : Sound r) (hv : v ∈ r.visits) (hs : v.stage.isPassive = false) :
    (r.remove v.ticket).held v.lock = false := by
  obtain ⟨before, after, split, others⟩ := h.exists_line_split hv
  have ho := h.lines v.lock
  rw [split] at ho
  rw [held_eq_any_line, line_remove_self split others]
  exact any_holds_of_passive (ho.others hs)

theorem forgetLock_eq (r : Registry) (path : String) (lock : LockId) :
    r.forgetLock path lock = r ∨ r.held lock = false ∧ Assoc.get? r.locks path = some lock ∧
      r.forgetLock path lock = { r with locks := Assoc.erase r.locks path } := by
  rw [forgetLock]
  split
  · next h => exact .inr ⟨by simpa using (Bool.and_eq_true_iff.mp h).1,
      by simpa using (Bool.and_eq_true_iff.mp h).2, rfl⟩
  · exact .inl rfl

theorem Sound.forgetLock (h : Sound r) (path : String) (lock : LockId) :
    Sound (r.forgetLock path lock) := by
  rcases forgetLock_eq r path lock with he | ⟨-, -, he⟩
  · rwa [he]
  · rw [he]
    exact h.of_tables r.closings h.cachedKeys (Assoc.erase_sublist r.locks path)

theorem Sound.forgetLockOf (h : Sound r) (path : String) : Sound (r.forgetLockOf path) := by
  rw [Registry.forgetLockOf]
  split
  · exact h.forgetLock path _
  · exact h

/-- A lock that the table does not have for the path is not forgotten. -/
theorem tidy_of_get?_ne (ne : Assoc.get? r.locks path ≠ some lock) : r.tidy path lock = r := by
  rw [tidy]
  split
  · rfl
  · rw [forgetLock, if_neg]
    intro h
    exact ne (by simpa using (Bool.and_eq_true_iff.mp h).2)

theorem Sound.tidy (h : Sound r) (path : String) (lock : LockId) : Sound (r.tidy path lock) := by
  rw [Registry.tidy]
  split
  · exact h
  · exact h.forgetLock path lock

/-- A visit that holds its lock or has been woken leaves. -/
theorem Sound.leave (h : Sound r) (hv : v ∈ r.visits) (hs : v.stage.isPassive = false) :
    Sound (r.leave v).1 :=
  (h.remove_wakeFirst hv (h.held_remove hv hs)).tidy v.path v.lock

theorem quit_of_held (held : (r.remove v.ticket).held v.lock = true) :
    (r.quit v).1 = (r.remove v.ticket).tidy v.path v.lock := by
  simp only [quit, held, if_true]

theorem quit_of_free (free : (r.remove v.ticket).held v.lock = false) :
    (r.quit v).1 = ((r.remove v.ticket).wakeFirst v.lock).1.tidy v.path v.lock := by
  simp only [quit, free, Bool.false_eq_true, if_false]

/-- A cancelled visit leaves the queue. -/
theorem Sound.quit (h : Sound r) (hv : v ∈ r.visits) : Sound (r.quit v).1 := by
  cases hh : (r.remove v.ticket).held v.lock with
  | true =>
    rw [quit_of_held hh]
    exact (h.remove_of_held hv hh).tidy v.path v.lock
  | false =>
    rw [quit_of_free hh]
    exact (h.remove_wakeFirst hv hh).tidy v.path v.lock

theorem Sound.touch (h : Sound r) (path : String) (console : ConsoleId) :
    Sound (r.touch path console) := by
  refine h.of_tables r.closings ?_ (List.Sublist.refl r.locks)
  rw [Assoc.keys, List.map_append]
  refine List.Nodup.append (h.cachedKeys.sublist (Assoc.keys_erase_sublist _ path))
    (List.nodup_singleton path) ?_
  intro key hk he
  rw [List.mem_singleton.mp he] at hk
  have hg := Assoc.get?_erase_self h.cachedKeys path
  rw [Assoc.get?_eq_none_iff] at hg
  exact hg hk

/-! ### Events -/

theorem forgetLockOf_visits (r : Registry) (path : String) :
    (r.forgetLockOf path).visits = r.visits := by
  rw [Registry.forgetLockOf]
  split
  · rcases forgetLock_eq r path ‹_› with he | ⟨-, -, he⟩ <;> rw [he]
  · rfl

theorem forgetLockOf_cached (r : Registry) (path : String) :
    (r.forgetLockOf path).cached = r.cached := by
  rw [Registry.forgetLockOf]
  split
  · rcases forgetLock_eq r path ‹_› with he | ⟨-, -, he⟩ <;> rw [he]
  · rfl

theorem evict_visits (r : Registry) (entries : List (String × ConsoleId)) :
    (r.evict entries).1.visits = r.visits := by
  induction entries generalizing r with
  | nil => rfl
  | cons entry rest ih =>
    rw [Registry.evict]
    split
    · exact (ih _).trans (forgetLockOf_visits _ entry.1)
    · rfl

theorem Sound.evict (h : Sound r) (entries : List (String × ConsoleId))
    (cached : r.cached = entries) : Sound (r.evict entries).1 := by
  induction entries generalizing r with
  | nil => exact h
  | cons entry rest ih =>
    rw [Registry.evict]
    split
    · have keys : (Assoc.keys rest).Nodup := by
        have hk := h.cachedKeys
        rw [cached] at hk
        exact (List.nodup_cons.mp hk).2
      have ho := h.of_tables r.closings keys (List.Sublist.refl r.locks)
      exact ih (ho.forgetLockOf entry.1) (forgetLockOf_cached _ entry.1)
    · exact h

theorem insert_visits (r : Registry) (path : String) (console : ConsoleId) :
    (r.insert path console).1.visits = r.visits :=
  evict_visits _ _

theorem Sound.insert (h : Sound r) (path : String) (console : ConsoleId) :
    Sound (r.insert path console).1 :=
  (h.touch path console).evict _ rfl

/-- A newcomer joins the line of the lock of its path. -/
theorem Sound.newcomer (h : Sound r) (fresh : r.Fresh v.ticket)
    (registered : (v.path, v.lock) ∈ r.locks) (line : Orderly (r.line v.lock ++ [v])) :
    Sound { r with visits := r.visits ++ [v] } := by
  refine ⟨?_, ?_, h.cachedKeys, h.lockKeys, ?_, h.tableLocks, ?_⟩
  · rw [List.map_append]
    refine List.Nodup.append h.tickets (List.nodup_singleton v.ticket) ?_
    intro ticket ht he
    obtain ⟨u, hu, rfl⟩ := List.mem_map.mp ht
    exact fresh.1 u hu (List.mem_singleton.mp he)
  · intro lock
    rw [line_newcomer]
    split
    · next hl => exact hl ▸ line
    · exact (List.append_nil (r.line lock)).symm ▸ h.lines lock
  · intro u hu
    rcases List.mem_append.mp hu with hu | hu
    · exact h.visitLocks u hu
    · rw [List.mem_singleton.mp hu]
      exact h.tableLocks _ registered
  · obtain ⟨owner, hv, he⟩ := h.owned
    refine ⟨owner, fun u hu ↦ ?_, he⟩
    rcases List.mem_append.mp hu with hu | hu
    · exact hv u hu
    · rw [List.mem_singleton.mp hu]
      exact he _ registered

/-- A path without a lock gets a new one. -/
theorem Sound.newLock (h : Sound r) {path : String} (none : Assoc.get? r.locks path = none) :
    Sound { r with locks := r.locks ++ [(path, r.nextLock)], nextLock := r.nextLock + 1 } := by
  refine ⟨h.tickets, h.lines, h.cachedKeys, ?_, ?_, ?_, ?_⟩
  · rw [Assoc.keys, List.map_append]
    refine List.Nodup.append h.lockKeys (List.nodup_singleton path) ?_
    intro key hk he
    rw [List.mem_singleton.mp he] at hk
    exact (Assoc.get?_eq_none_iff _ _).mp none hk
  · exact fun v hv ↦ Nat.lt_succ_of_lt (h.visitLocks v hv)
  · intro entry he
    rcases List.mem_append.mp he with he | he
    · exact Nat.lt_succ_of_lt (h.tableLocks entry he)
    · rw [List.mem_singleton.mp he]
      exact Nat.lt_succ_self r.nextLock
  · obtain ⟨owner, hv, ht⟩ := h.owned
    refine ⟨Function.update owner r.nextLock path, fun v hm ↦ ?_, fun entry he ↦ ?_⟩
    · rw [Function.update_of_ne (Nat.ne_of_lt (h.visitLocks v hm))]
      exact hv v hm
    · rcases List.mem_append.mp he with he | he
      · rw [Function.update_of_ne (Nat.ne_of_lt (h.tableLocks entry he))]
        exact ht entry he
      · rw [List.mem_singleton.mp he, Function.update_self]

theorem lockFor_visits (r : Registry) (path : String) : (r.lockFor path).1.visits = r.visits := by
  rw [lockFor]
  split <;> rfl

theorem lockFor_closings (r : Registry) (path : String) :
    (r.lockFor path).1.closings = r.closings := by
  rw [lockFor]
  split <;> rfl

/-- The lock that a path is given is registered for it. -/
theorem get?_lockFor (r : Registry) (path : String) :
    Assoc.get? (r.lockFor path).1.locks path = some (r.lockFor path).2 := by
  rw [lockFor]
  split
  · next hl => exact hl
  · next hl =>
    rw [Assoc.get?_append, hl, Option.none_or, Assoc.get?, if_pos rfl]

theorem Sound.lockFor (h : Sound r) (path : String) : Sound (r.lockFor path).1 := by
  rw [Registry.lockFor]
  split
  · exact h
  · next hl => exact h.newLock hl

theorem Sound.arrive (h : Sound r) (fresh : r.Fresh ticket) (path : String) :
    Sound (r.arrive ticket path).1 := by
  rw [Registry.arrive]
  split
  · exact h.touch path _
  · have hs := h.lockFor path
    have hf : (r.lockFor path).1.Fresh ticket := by
      rw [Fresh, lockFor_visits, lockFor_closings]
      exact fresh
    dsimp only
    split
    · next free =>
      exact hs.newcomer (v := ⟨ticket, path, _, .building none⟩) hf (Assoc.mem_of_get?_eq_some (get?_lockFor r path))
        (.take (withdrawn_of_isFree free) rfl)
    · next busy =>
      exact hs.newcomer (v := ⟨ticket, path, _, .waiting⟩) hf (Assoc.mem_of_get?_eq_some (get?_lockFor r path))
        ((hs.lines _).join (line_ne_nil_of_not_isFree (Bool.not_eq_true _ ▸ busy)) rfl)

theorem Sound.of_closings (h : Sound r) (closings : List Closing) : Sound { r with closings } :=
  h.of_tables closings h.cachedKeys (List.Sublist.refl r.locks)

/-- A stage that a visit has, as a visit of the registry. -/
theorem Sound.exists_of_stage? (h : Sound r) {test : Stage → Bool}
    (hs : (r.stage? ticket).any test = true) :
    ∃ v ∈ r.visits, v.ticket = ticket ∧ r.visit? ticket = some v ∧ test v.stage = true := by
  rw [stage?, Option.any_map] at hs
  obtain ⟨v, hv, ht⟩ := (Option.any_eq_true _ _).mp hs
  obtain ⟨hm, he⟩ := h.visit?_eq_some_iff.mp hv
  exact ⟨v, hm, he, hv, ht⟩

theorem resume_found {console : ConsoleId} (hs : r.visit? ticket = some v)
    (woken : v.stage = .woken) (found : r.find? v.path = some console) :
    (r.resume ticket).1 = ((r.touch v.path console).leave v).1 := by
  simp only [resume, hs, woken, found]

theorem resume_builds (hs : r.visit? ticket = some v) (woken : v.stage = .woken)
    (absent : r.find? v.path = none) :
    (r.resume ticket).1 = r.setStage ticket (.building none) := by
  simp only [resume, hs, woken, absent]

theorem resume_quits (hs : r.visit? ticket = some v)
    (gone : v.stage = .withdrawn ∨ v.stage = .dismissed) :
    (r.resume ticket).1 = (r.quit v).1 := by
  rcases gone with gone | gone <;> simp only [resume, hs, gone]

/-- What comes of the turn of a queued visit: a woken one finds the console of its path or builds it, and one
that is given up quits. -/
inductive Resumes (r : Registry) : Ticket → Registry × TurnEnd × Option Ticket → Prop
  | found {v : Visit} {console : ConsoleId} (mem : v ∈ r.visits) (woken : v.stage = .woken)
      (known : r.find? v.path = some console) :
      Resumes r v.ticket
        (((r.touch v.path console).leave v).1, .found console, ((r.touch v.path console).leave v).2)
  | builds {v : Visit} (mem : v ∈ r.visits) (woken : v.stage = .woken) (absent : r.find? v.path = none) :
      Resumes r v.ticket (r.setStage v.ticket (.building none), .builds, none)
  | quits {v : Visit} (mem : v ∈ r.visits) (gone : v.stage = .withdrawn ∨ v.stage = .dismissed) :
      Resumes r v.ticket ((r.quit v).1, .cancelled, (r.quit v).2)

theorem Sound.resumes (h : Sound r) (enabled : (r.stage? ticket).any Stage.takesTurn = true) :
    r.Resumes ticket (r.resume ticket) := by
  obtain ⟨v, hv, rfl, hs, ht⟩ := h.exists_of_stage? enabled
  cases stage : v.stage with
  | woken =>
    cases known : r.find? v.path with
    | some console =>
      simp only [Registry.resume, hs, stage, known]
      exact .found hv stage known
    | none =>
      simp only [Registry.resume, hs, stage, known]
      exact .builds hv stage known
  | withdrawn =>
    simp only [Registry.resume, hs, stage]
    exact .quits hv (.inl stage)
  | dismissed =>
    simp only [Registry.resume, hs, stage]
    exact .quits hv (.inr stage)
  | waiting | building | discarding => rw [stage] at ht; cases ht

/-- A queued visit takes its turn. -/
theorem Sound.resume (h : Sound r) {result : Registry × TurnEnd × Option Ticket}
    (resumes : r.Resumes ticket result) : Sound result.1 := by
  cases resumes with
  | found mem woken => exact (h.touch _ _).leave mem (by rw [woken]; rfl)
  | builds mem woken =>
    exact h.setStage mem (fun _ ↦ by rw [woken]; rfl) (fun _ ↦ rfl) (fun he ↦ by cases he)
  | quits mem => exact h.quit mem

/-- A queued visit is cancelled. -/
theorem Sound.cancel (h : Sound r) (enabled : (r.stage? ticket).any Stage.canCancel = true) :
    Sound (r.cancel ticket).1 := by
  obtain ⟨v, hv, rfl, hs, ht⟩ := h.exists_of_stage? enabled
  rw [Registry.cancel, hs, Option.map_some]
  cases stage : v.stage with
  | waiting =>
    exact h.setStage hv (fun hp ↦ by cases hp) (fun hh ↦ by rw [stage] at hh; cases hh)
      (fun he ↦ by cases he)
  | woken =>
    exact h.setStage hv (fun _ ↦ by rw [stage]; rfl) (fun hh ↦ by rw [stage] at hh; cases hh)
      (fun he ↦ by cases he)
  | withdrawn | dismissed | building | discarding => rw [stage] at ht; cases ht

/-- A visit that builds gets on with it, or fails. -/
theorem Sound.setStage_of_holds (h : Sound r) (hv : v ∈ r.visits) (hs : v.stage.holds = true)
    {stage : Stage} (ht : stage.holds = true) : Sound (r.setStage v.ticket stage) := by
  exact h.setStage hv (fun _ ↦ Stage.not_isPassive_of_holds hs) (fun _ ↦ ht)
    (fun he ↦ by rw [he] at ht; cases ht)

/-- A build has succeeded. -/
theorem Sound.keep (h : Sound r) (hv : v ∈ r.visits) (hs : v.stage.isPassive = false)
    (console : ConsoleId) : Sound (r.keep v.ticket console).1 := by
  have hi := h.insert v.path console
  have visits := insert_visits r v.path console
  rw [Registry.keep, h.visit?_eq_some_iff.mpr ⟨hv, rfl⟩]
  exact (hi.leave (visits.symm ▸ hv) hs).of_closings _

/-- Every event keeps a registry sound. -/
theorem Sound.perform (h : Sound r) {event : Event} (enabled : r.Enabled event) :
    Sound (r.perform event) := by
  cases event with
  | arrive ticket path => exact h.arrive enabled path
  | turn ticket => exact h.resume (h.resumes enabled)
  | cancel ticket => exact h.cancel enabled
  | made ticket console =>
    obtain ⟨v, hv, rfl, -, ht⟩ := h.exists_of_stage? enabled
    exact h.setStage_of_holds hv (Stage.holds_of_produces ht) rfl
  | keep ticket =>
    obtain ⟨v, hv, rfl, hs, ht⟩ := h.exists_of_stage? enabled
    rw [Registry.perform]
    split
    · exact h.keep hv (Stage.not_isPassive_of_holds (Stage.holds_of_starts ht)) _
    · exact h
  | fail ticket =>
    obtain ⟨v, hv, rfl, hs, ht⟩ := h.exists_of_stage? enabled
    rw [Registry.perform, Registry.fail, hs, Option.map_some]
    split
    · exact h.setStage_of_holds hv (Stage.holds_of_starts ht) rfl
    · exact h
  | giveUp ticket =>
    obtain ⟨v, hv, rfl, hs, ht⟩ := h.exists_of_stage? enabled
    rw [Registry.perform, Registry.giveUp, hs]
    exact h.leave hv (Stage.not_isPassive_of_holds (Stage.holds_of_canGiveUp ht))
  | reset ticket path =>
    have keys := h.cachedKeys.sublist (Assoc.keys_erase_sublist r.cached path)
    have ho := h.of_tables r.closings keys (List.Sublist.refl r.locks)
    exact (ho.forgetLockOf path).of_closings _
  | clear ticket => exact h.of_tables _ List.nodup_nil (List.nil_sublist r.locks)
  | closed ticket => exact h.of_closings _

/-- A new registry is sound. -/
theorem sound_make {bound : Int} (made : make bound = .ok r) : Sound r := by
  rw [make] at made
  split at made
  · cases made
    exact ⟨List.nodup_nil, fun _ ↦ orderly_nil, List.nodup_nil, List.nodup_nil, by simp, by simp,
      fun _ ↦ "", by simp, by simp⟩
  · cases made

/-- Every run from a new registry leads to a sound one. -/
theorem Run.sound {bound : Int} {start : Registry} {events : List Event}
    (made : make bound = .ok start) (run : Run start events r) : Sound r :=
  run.preserves (fun _ _ h enabled ↦ h.perform enabled) (sound_make made)

end VerbForms.Registry
