import VerbForms.Proofs.Registry.Shrink
import Mathlib.Data.Fintype.EquivFin

/-!
# Builds of one path

A lock keeps two builds apart that use it, so that a path has at most one build in progress as long
as the visits that may build it use the lock that the table has for it. A lock that nobody holds can
be forgotten while it still has a queue: from then on a newcomer and the queue build at the same
time.
-/

namespace VerbForms.Registry

variable {r s t : Registry} {v : Visit} {lock other : LockId} {ticket : Ticket} {path : String}

/-- Stages in which a console is being built. -/
def Stage.isBuild : Stage → Bool
  | .building _ => true
  | _ => false

/-- The builds of a path that are in progress. -/
def builds (r : Registry) (path : String) : List Visit :=
  r.visits.filter fun v ↦ v.path == path && v.stage.isBuild

/-- The visits that build a path or may come to do so use the lock that is registered for it. -/
def KeepsLock (r : Registry) (path : String) : Prop :=
  ∀ v ∈ r.visits, v.path = path → v.stage.mayBuild = true → Assoc.get? r.locks path = some v.lock

instance (r : Registry) (path : String) : Decidable (r.KeepsLock path) :=
  inferInstanceAs (Decidable (∀ v ∈ r.visits, _ → _ → _ = _))

/-- The visits that build a path or may come to do so use one lock. -/
def OneLock (r : Registry) (path : String) (lock : LockId) : Prop :=
  ∀ v ∈ r.visits, v.path = path → v.stage.mayBuild = true → v.lock = lock

/-! ### At most one build for each lock -/

theorem mem_builds : v ∈ r.builds path ↔ v ∈ r.visits ∧ v.path = path ∧ v.stage.isBuild = true := by
  simp [builds]

theorem Stage.isBuild_of_produces {stage : Stage} (h : stage.produces = true) :
    stage.isBuild = true := by
  cases stage <;> first | rfl | cases h

theorem Stage.mayBuild_of_isBuild {stage : Stage} (h : stage.isBuild = true) :
    stage.mayBuild = true := by
  cases stage <;> first | rfl | cases h

theorem Stage.not_isPassive_of_isBuild {stage : Stage} (h : stage.isBuild = true) :
    stage.isPassive = false := by
  cases stage <;> first | rfl | cases h

/-- Builds in progress hold different locks. -/
theorem Sound.nodup_locks_builds (h : Sound r) (path : String) :
    ((r.builds path).map Visit.lock).Nodup := by
  rw [List.Nodup, List.pairwise_map, List.pairwise_iff_forall_sublist]
  intro u v hs hl
  have hu := (mem_builds.mp (hs.subset (List.mem_cons_self))).2.2
  have hv := (mem_builds.mp (hs.subset (List.mem_cons_of_mem _ List.mem_cons_self))).2.2
  -- Both stand in one line, of which only one visit is not passive.
  have hline : [u, v].Sublist (r.line u.lock) := by
    have hf := (hs.trans List.filter_sublist).filter (·.lock == u.lock)
    simpa [line, hl] using hf
  rcases List.pairwise_iff_forall_sublist.mp (h.lines u.lock).single hline with hp | hp
  · rw [Stage.not_isPassive_of_isBuild hu] at hp
    cases hp
  · rw [Stage.not_isPassive_of_isBuild hv] at hp
    cases hp

/-- Where one lock is used for a path, one build of it is in progress at most. -/
theorem Sound.length_builds_le_one (h : Sound r) (one : r.OneLock path lock) :
    (r.builds path).length ≤ 1 := by
  have hn := h.nodup_locks_builds path
  have hl : ∀ v ∈ r.builds path, v.lock = lock := by
    intro v hv
    obtain ⟨hm, hp, hb⟩ := mem_builds.mp hv
    exact one v hm hp (Stage.mayBuild_of_isBuild hb)
  generalize r.builds path = visits at hn hl
  match visits with
  | [] => exact Nat.zero_le 1
  | [_] => exact Nat.le_refl 1
  | u :: v :: _ =>
    have he : u.lock = v.lock := by rw [hl u (by simp), hl v (by simp)]
    simp [he] at hn

/-- The visits of a path whose lock is kept use one lock. -/
theorem KeepsLock.exists_oneLock (keeps : r.KeepsLock path) : ∃ lock, r.OneLock path lock := by
  cases hl : Assoc.get? r.locks path with
  | none =>
    refine ⟨0, fun v hv hp hb ↦ ?_⟩
    have hk := keeps v hv hp hb
    rw [hl] at hk
    cases hk
  | some lock =>
    refine ⟨lock, fun v hv hp hb ↦ ?_⟩
    have hk := keeps v hv hp hb
    rw [hl] at hk
    exact (Option.some.inj hk).symm

/-! ### How events treat the visits and the table -/

theorem OneLock.of_fewer (one : r.OneLock path lock) (fewer : FewerBuilders r s) :
    s.OneLock path lock := by
  intro v hv hp hb
  obtain ⟨u, hu, hub, hup, hul⟩ := fewer v hv hb
  rw [← hul, one u hu (hup.trans hp) hub]

/-- A path stays in the state in which its lock is kept if the table does not change for it. -/
theorem KeepsLock.of_fewer (keeps : r.KeepsLock path) (fewer : FewerBuilders r s)
    (same : Assoc.get? s.locks path = Assoc.get? r.locks path) : s.KeepsLock path := by
  intro v hv hp hb
  obtain ⟨u, hu, hub, hup, hul⟩ := fewer v hv hb
  rw [same, keeps u hu (hup.trans hp) hub, hul]

theorem KeepsLock.of_cached (keeps : r.KeepsLock path) (cached : List (String × ConsoleId)) :
    KeepsLock { r with cached } path := keeps

/-- The lock of a path has been forgotten: a newcomer will get a new one and build, and nobody
holds the old one. -/
structure LosesLock (r : Registry) (path : String) (lock : LockId) : Prop where
  unregistered : Assoc.get? r.locks path = none
  absent : r.find? path = none
  free : r.held lock = false
  one : r.OneLock path lock

/-- Where something is only taken away, a lock is kept or lost. -/
theorem KeepsLock.of_shrinks (keeps : r.KeepsLock path) (h : Shrinks r s) :
    s.KeepsLock path ∨ ∃ lock, s.LosesLock path lock := by
  rcases h.locks path with same | ⟨unregistered, absent, free⟩
  · exact .inl (keeps.of_fewer h.fewer same)
  · cases hl : Assoc.get? r.locks path with
    | none => exact .inl (keeps.of_fewer h.fewer (unregistered.trans hl.symm))
    | some lock =>
      refine .inr ⟨lock, unregistered, absent, free lock hl, ?_⟩
      have one : r.OneLock path lock := by
        intro v hv hp hb
        have hk := keeps v hv hp hb
        rw [hl] at hk
        exact (Option.some.inj hk).symm
      exact one.of_fewer h.fewer

/-- A newcomer uses the lock that is registered for its path, and no lock is forgotten. -/
theorem KeepsLock.arrive (keeps : r.KeepsLock path) (ticket : Ticket) (key : String) :
    (r.arrive ticket key).1.KeepsLock path := by
  have table : (r.lockFor key).1.KeepsLock path := by
    intro v hv hp hb
    rw [lockFor_visits] at hv
    have hk := keeps v hv hp hb
    rw [lockFor]
    split
    · exact hk
    · rw [Assoc.get?_append, hk]
      rfl
  have join : ∀ stage, KeepsLock { (r.lockFor key).1 with
      visits := (r.lockFor key).1.visits ++ [⟨ticket, key, (r.lockFor key).2, stage⟩] } path := by
    intro stage v hv hp hb
    rcases List.mem_append.mp hv with hv | hv
    · exact table v hv hp hb
    · rw [List.mem_singleton.mp hv] at hp ⊢
      exact hp ▸ get?_lockFor r key
  rw [Registry.arrive]
  split
  · exact keeps
  · dsimp only
    split
    · exact join _
    · exact join _

/-- A visit takes its turn: it builds under the lock it waited for, or something is taken away. -/
theorem KeepsLock.resume (keeps : r.KeepsLock path) (h : Sound r)
    {result : Registry × TurnEnd × Option Ticket} (resumes : r.Resumes ticket result) :
    result.1.KeepsLock path ∨ ∃ lock, result.1.LosesLock path lock := by
  cases resumes with
  | found mem woken =>
    exact (keeps.of_cached _).of_shrinks ((h.touch _ _).shrinks_leave mem (by rw [woken]; rfl))
  | builds mem woken =>
    exact .inl (keeps.of_fewer (h.fewerBuilders_setStage mem (by rw [woken]; rfl)) rfl)
  | quits mem => exact keeps.of_shrinks (h.shrinks_quit mem)

/-- A build has succeeded: consoles that have to go are evicted, and the visit leaves. -/
theorem KeepsLock.keep (keeps : r.KeepsLock path) (h : Sound r) (hv : v ∈ r.visits)
    (hs : v.stage.isPassive = false) (console : ConsoleId) :
    (r.keep v.ticket console).1.KeepsLock path ∨
      ∃ lock, (r.keep v.ticket console).1.LosesLock path lock := by
  have inserted := h.insert v.path console
  have visits := insert_visits r v.path console
  have evicted : Shrinks (r.touch v.path console) (r.insert v.path console).1 :=
    (h.touch v.path console).shrinks_evict _ rfl
  rw [Registry.keep, h.visit?_eq_some_iff.mpr ⟨hv, rfl⟩]
  exact (keeps.of_cached _).of_shrinks
    ((evicted.trans (inserted.shrinks_leave (visits.symm ▸ hv) hs)).of_closings _)

/-- After an event other than the removal of all consoles a lock is kept or lost. -/
theorem KeepsLock.perform (keeps : r.KeepsLock path) (h : Sound r) {event : Event}
    (enabled : r.Enabled event) (noClear : event.isClear = false) :
    (r.perform event).KeepsLock path ∨ ∃ lock, (r.perform event).LosesLock path lock := by
  cases event with
  | arrive ticket key => exact .inl (keeps.arrive ticket key)
  | turn ticket => exact keeps.resume h (h.resumes enabled)
  | cancel ticket => exact keeps.of_shrinks (h.shrinks_cancel enabled)
  | made ticket console =>
    obtain ⟨v, hv, rfl, -, ht⟩ := h.exists_of_stage? enabled
    exact keeps.of_shrinks (h.shrinks_setStage hv
      (fun _ ↦ Stage.mayBuild_of_isBuild (Stage.isBuild_of_produces ht))
      (fun _ ↦ Stage.holds_of_produces ht))
  | keep ticket =>
    obtain ⟨v, hv, rfl, -, ht⟩ := h.exists_of_stage? enabled
    rw [Registry.perform]
    split
    · exact keeps.keep h hv (Stage.not_isPassive_of_holds (Stage.holds_of_starts ht)) _
    · exact .inl keeps
  | fail ticket => exact keeps.of_shrinks (h.shrinks_fail enabled)
  | giveUp ticket =>
    obtain ⟨v, hv, rfl, hs, ht⟩ := h.exists_of_stage? enabled
    rw [Registry.perform, Registry.giveUp, hs]
    exact keeps.of_shrinks
      (h.shrinks_leave hv (Stage.not_isPassive_of_holds (Stage.holds_of_canGiveUp ht)))
  | reset ticket key =>
    exact keeps.of_shrinks (h.shrinks_reset ticket key)
  | clear ticket => cases noClear
  | closed ticket => exact keeps.of_shrinks ((Shrinks.refl r).of_closings _)

/-! ### A forgotten lock lets two builds start -/

/-- A build of the path is in progress under the registered lock, while a visit that may build it
too stands in the line of another lock, which nobody holds. -/
structure Contested (r : Registry) (path : String) (lock other : LockId) : Prop where
  absent : r.find? path = none
  registered : Assoc.get? r.locks path = some other
  ne : lock ≠ other
  free : r.held lock = false
  rival : ∃ c ∈ r.line other, c.path = path ∧ c.stage.isBuild = true
  queued : ∃ w ∈ r.line lock, w.path = path ∧ w.stage.mayBuild = true

/-- The visits in one line have one path. -/
theorem Sound.path_eq_of_lock_eq (h : Sound r) {u : Visit} (hu : u ∈ r.visits) (hv : v ∈ r.visits)
    (hl : u.lock = v.lock) : u.path = v.path := by
  obtain ⟨owner, ho, -⟩ := h.owned
  rw [ho u hu, ho v hv, hl]

theorem stage?_of_mem (h : Sound r) (hv : v ∈ r.visits) : r.stage? v.ticket = some v.stage := by
  rw [stage?, h.visit?_eq_some_iff.mpr ⟨hv, rfl⟩]
  rfl

theorem mem_wakeHead_mayBuild {visits : List Visit} {w : Visit} (hw : w ∈ visits)
    (hb : w.stage.mayBuild = true) :
    ∃ u ∈ wakeHead visits, u.path = w.path ∧ u.stage.mayBuild = true := by
  cases visits with
  | nil => cases hw
  | cons first rest =>
    rw [wakeHead]
    rcases List.mem_cons.mp hw with rfl | hw
    · refine ⟨_, List.mem_cons_self, ?_⟩
      split
      · exact ⟨rfl, rfl⟩
      · exact ⟨rfl, hb⟩
    · exact ⟨w, List.mem_cons_of_mem _ hw, rfl, hb⟩

theorem two_le_length_builds {u : Visit} (hu : u ∈ r.builds path)
    (hv : v ∈ r.builds path) (ne : u.lock ≠ v.lock) : 2 ≤ (r.builds path).length := by
  generalize r.builds path = visits at hu hv
  match visits with
  | [] => cases hu
  | [w] =>
    rw [List.mem_singleton.mp hu, List.mem_singleton.mp hv] at ne
    exact absurd rfl ne
  | _ :: _ :: _ => simp

/-- A woken visit in the contested line begins a second build at its turn. -/
theorem Contested.build (contested : r.Contested path lock other) (h : Sound r) (hv : v ∈ r.visits)
    (hl : v.lock = lock) (woken : v.stage = .woken) :
    2 ≤ ((r.resume v.ticket).1.builds path).length := by
  obtain ⟨absent, -, ne, -, ⟨c, hc, hcp, hcb⟩, ⟨w, hw, hwp, -⟩⟩ := contested
  subst hl
  obtain ⟨hwm, hwl⟩ := mem_line.mp hw
  have hpath : v.path = path := by rw [← hwp, h.path_eq_of_lock_eq hv hwm hwl.symm]
  obtain ⟨hcm, hcl⟩ := mem_line.mp hc
  have hct : c.ticket ≠ v.ticket := ticket_ne_of_mem_line h.tickets hv ne.symm c hc
  rw [resume_builds (h.visit?_eq_some_iff.mpr ⟨hv, rfl⟩) woken (hpath ▸ absent)]
  have started : { v with stage := .building none } ∈
      (r.setStage v.ticket (.building none)).builds path :=
    mem_builds.mpr ⟨List.mem_map.mpr ⟨v, hv, if_pos rfl⟩, hpath, rfl⟩
  have running : c ∈ (r.setStage v.ticket (.building none)).builds path :=
    mem_builds.mpr ⟨List.mem_map.mpr ⟨c, hcm, if_neg hct⟩, hcp, hcb⟩
  exact two_le_length_builds started running (by rw [hcl]; exact ne)

/-- A visit that only leaves makes the line shorter and keeps the contest. -/
theorem Contested.quit (contested : r.Contested path lock other) (h : Sound r) {first : Visit}
    {rest : List Visit} (hl : r.line lock = first :: rest) (leaves : first.stage.mayBuild = false) :
    (r.quit first).1.Contested path lock other ∧
      ((r.quit first).1.line lock).length = rest.length := by
  obtain ⟨absent, registered, ne, free, ⟨c, hc, hcp, hcb⟩, ⟨w, hw, hwp, hwb⟩⟩ := contested
  obtain ⟨hm, hlock⟩ : first ∈ r.visits ∧ first.lock = lock := mem_line.mp (by rw [hl]; simp)
  subst hlock
  have hpath : first.path = path := by
    obtain ⟨hwm, hwl⟩ := mem_line.mp hw
    rw [← hwp, h.path_eq_of_lock_eq hm hwm hwl.symm]
  have gone := tickets_remove h.tickets first.ticket
  have unheld : (r.remove first.ticket).held first.lock = false :=
    (shrinks_remove r first.ticket).free first.lock free
  have removed : (r.remove first.ticket).line first.lock = rest := by
    have hn : ((r.line first.lock).map Visit.ticket).Nodup :=
      h.tickets.sublist (List.filter_sublist.map Visit.ticket)
    rw [hl, List.map_cons, List.nodup_cons] at hn
    have hs : r.line first.lock = [] ++ first :: rest := by rw [hl]; rfl
    exact line_remove_self hs fun u hu ht ↦ hn.1 (ht ▸ List.mem_map_of_mem hu)
  -- The table names the other lock, so that nothing is forgotten.
  have left : (r.quit first).1 = ((r.remove first.ticket).wakeFirst first.lock).1 := by
    rw [quit_of_free unheld, tidy_of_get?_ne]
    rw [hpath, wakeFirst_locks]
    exact fun he ↦ ne (Option.some.inj (he.symm.trans registered))
  have woken := line_wakeFirst gone unheld first.lock
  rw [if_pos rfl, removed] at woken
  have beside := line_wakeFirst gone unheld other
  rw [if_neg ne.symm, line_remove_of_ne h.tickets hm ne.symm] at beside
  have shrinks := h.shrinks_quit hm
  have hwr : w ∈ rest := by
    rw [hl] at hw
    rcases List.mem_cons.mp hw with rfl | hw
    · rw [leaves] at hwb
      cases hwb
    · exact hw
  obtain ⟨u, hu, hup, hub⟩ := mem_wakeHead_mayBuild hwr hwb
  rw [left] at shrinks ⊢
  refine ⟨⟨shrinks.uncached path absent, ?_, ne, shrinks.free first.lock free, ?_, ?_⟩, ?_⟩
  · rw [wakeFirst_locks]
    exact registered
  · exact ⟨c, by rw [beside]; exact hc, hcp, hcb⟩
  · exact ⟨u, by rw [woken]; exact hu, hup.trans hwp, hub⟩
  · rw [woken, length_wakeHead]

/-- In a contest the turns of the queued visits come to a second build. -/
theorem Contested.exists_turns (contested : r.Contested path lock other) (h : Sound r) :
    ∃ (turns : List Ticket) (s : Registry),
      Run r (turns.map Event.turn) s ∧ 2 ≤ (s.builds path).length := by
  -- Induction on the length of the line: visits that only leave go first.
  generalize hn : (r.line lock).length = n
  induction n generalizing r with
  | zero =>
    obtain ⟨w, hw, -⟩ := contested.queued
    rw [List.length_eq_zero_iff.mp hn] at hw
    cases hw
  | succ n ih =>
    cases hl : r.line lock with
    | nil => rw [hl] at hn; cases hn
    | cons first rest =>
      obtain ⟨hm, hlock⟩ : first ∈ r.visits ∧ first.lock = lock := mem_line.mp (by rw [hl]; simp)
      have stage := stage?_of_mem h hm
      have leaving (takes : first.stage.takesTurn = true) (gone : first.stage.mayBuild = false)
          (quits : (r.resume first.ticket).1 = (r.quit first).1) :
          ∃ (turns : List Ticket) (s : Registry),
            Run r (turns.map Event.turn) s ∧ 2 ≤ (s.builds path).length := by
        have enabled : r.Enabled (.turn first.ticket) := by
          rw [Enabled, stage]
          exact takes
        have next : r.perform (.turn first.ticket) = (r.quit first).1 := quits
        obtain ⟨still, shorter⟩ := contested.quit h hl gone
        have hr : rest.length = n := by rw [hl] at hn; exact Nat.succ.inj hn
        obtain ⟨turns, s, run, two⟩ := ih still (h.quit hm) (shorter.trans hr)
        exact ⟨first.ticket :: turns, s, .step enabled (next ▸ run), two⟩
      cases hs : first.stage with
      | waiting =>
        have hf := (h.lines lock).awake
        rw [← held_eq_any_line, contested.free, hl] at hf
        exact absurd hs ((hf.resolve_left Bool.false_ne_true).1 first rfl)
      | woken =>
        have enabled : r.Enabled (.turn first.ticket) := by
          rw [Enabled, stage, hs]
          rfl
        exact ⟨[first.ticket], _, .step enabled (.done _), contested.build h hm hlock hs⟩
      | withdrawn =>
        exact leaving (by rw [hs]; rfl) (by rw [hs]; rfl)
          (resume_quits (h.visit?_eq_some_iff.mpr ⟨hm, rfl⟩) (.inl hs))
      | dismissed =>
        exact leaving (by rw [hs]; rfl) (by rw [hs]; rfl)
          (resume_quits (h.visit?_eq_some_iff.mpr ⟨hm, rfl⟩) (.inr hs))
      | building made =>
        have hf := contested.free
        rw [held_eq_any_line, hl, List.any_cons, hs] at hf
        cases hf
      | discarding console =>
        have hf := contested.free
        rw [held_eq_any_line, hl, List.any_cons, hs] at hf
        cases hf

/-- A newcomer to a path that has lost its lock begins to build under a new one. -/
theorem LosesLock.contested (lost : r.LosesLock path lock) (h : Sound r)
    (queued : ∃ w ∈ r.visits, w.path = path ∧ w.stage.mayBuild = true) (ticket : Ticket) :
    (r.arrive ticket path).1.Contested path lock r.nextLock := by
  obtain ⟨w, hw, hwp, hwb⟩ := queued
  have hwl : w.lock = lock := lost.one w hw hwp hwb
  have ne : lock ≠ r.nextLock := hwl ▸ Nat.ne_of_lt (h.visitLocks w hw)
  have free : r.isFree r.nextLock = true := by
    have none : r.line r.nextLock = [] := by
      rw [line, List.filter_eq_nil_iff]
      intro v hv
      simpa using Nat.ne_of_lt (h.visitLocks v hv)
    rw [isFree, queue_eq_filter_line, held_eq_any_line, none]
    rfl
  have arrived : (r.arrive ticket path).1 =
      { r with
        locks := r.locks ++ [(path, r.nextLock)]
        nextLock := r.nextLock + 1
        visits := r.visits ++ [⟨ticket, path, r.nextLock, .building none⟩] } := by
    have same : isFree { r with
        locks := r.locks ++ [(path, r.nextLock)]
        nextLock := r.nextLock + 1 } r.nextLock = true := free
    simp only [Registry.arrive, lost.absent, lockFor, lost.unregistered, same, if_true]
  have lines (key : LockId) : (r.arrive ticket path).1.line key =
      r.line key ++ if r.nextLock = key then [⟨ticket, path, r.nextLock, .building none⟩] else [] := by
    rw [arrived]
    exact line_newcomer r ⟨ticket, path, r.nextLock, .building none⟩ key
  refine ⟨?_, ?_, ne, ?_, ⟨⟨ticket, path, r.nextLock, .building none⟩, ?_, rfl, rfl⟩,
    ⟨w, ?_, hwp, hwb⟩⟩
  · rw [arrived]
    exact lost.absent
  · rw [arrived, Assoc.get?_append, lost.unregistered, Option.none_or, Assoc.get?, if_pos rfl]
  · rw [held_eq_any_line, lines, if_neg ne.symm, List.append_nil, ← held_eq_any_line]
    exact lost.free
  · rw [lines, if_pos rfl]
    exact List.mem_append_right _ (List.mem_singleton_self _)
  · rw [lines]
    exact List.mem_append_left _ (mem_line.mpr ⟨hw, hwl⟩)

theorem exists_fresh (r : Registry) : ∃ ticket, r.Fresh ticket := by
  obtain ⟨ticket, ht⟩ := Infinite.exists_notMem_finset
    (r.visits.map Visit.ticket ++ r.closings.map Closing.ticket).toFinset
  simp only [List.mem_toFinset, List.mem_append, List.mem_map, not_or, not_exists, not_and] at ht
  exact ⟨ticket, ht⟩

/-- One newcomer and the turns that are due begin a second build of a path that has lost its lock
to a queue. -/
theorem LosesLock.exists_two_builds (lost : r.LosesLock path lock) (h : Sound r)
    (queued : ∃ w ∈ r.visits, w.path = path ∧ w.stage.mayBuild = true) :
    ∃ (ticket : Ticket) (turns : List Ticket) (s : Registry),
      Run r (.arrive ticket path :: turns.map .turn) s ∧ 2 ≤ (s.builds path).length := by
  obtain ⟨ticket, fresh⟩ := exists_fresh r
  obtain ⟨turns, s, run, two⟩ := (lost.contested h queued ticket).exists_turns (h.arrive fresh path)
  exact ⟨ticket, turns, s, .step fresh run, two⟩

/-- Turns alone bring no second lock into use. -/
theorem OneLock.run_turns (one : r.OneLock path lock) (h : Sound r) {turns : List Ticket}
    (run : Run r (turns.map .turn) s) : s.OneLock path lock ∧ Sound s := by
  induction turns generalizing r with
  | nil =>
    cases run
    exact ⟨one, h⟩
  | cons ticket turns ih =>
    cases run with
    | step enabled run =>
      have resumes := h.resumes enabled
      exact ih (one.of_fewer (h.fewerBuilders_resume resumes)) (h.resume resumes) run

/-- **Builds of one path overlap exactly where its lock is forgotten in use.** Builds in progress
hold different locks; while a path keeps its lock, at most one build of it is in progress; and an
event gives up the lock of a path, while there is still a visit that may build it, exactly if one
more visit to the path and the turns of queued visits then lead to two builds at once. -/
theorem builds_overlap_iff_lock_forgotten {bound : Int} {start : Registry} {events : List Event}
    (made : make bound = .ok start) (run : Run start events r) (path : String) :
    ((r.builds path).map Visit.lock).Nodup ∧
      (r.KeepsLock path →
        (r.builds path).length ≤ 1 ∧
          ∀ event, r.Enabled event → event.isClear = false →
            (¬ (r.perform event).KeepsLock path ↔
              ∃ (ticket : Ticket) (turns : List Ticket) (s : Registry),
                Run (r.perform event) (.arrive ticket path :: turns.map .turn) s ∧
                  2 ≤ (s.builds path).length)) := by
  have h : Sound r := run.sound made
  refine ⟨h.nodup_locks_builds path, fun keeps ↦ ⟨?_, fun event enabled noClear ↦ ⟨?_, ?_⟩⟩⟩
  · obtain ⟨lock, one⟩ := keeps.exists_oneLock
    exact h.length_builds_le_one one
  · intro broken
    obtain ⟨lock, lost⟩ := (keeps.perform h enabled noClear).resolve_left broken
    refine lost.exists_two_builds (h.perform enabled) ?_
    by_contra none
    exact broken fun v hv hp hb ↦ absurd ⟨v, hv, hp, hb⟩ none
  · rintro ⟨ticket, turns, s, after, two⟩ kept
    cases after with
    | step fresh after =>
      obtain ⟨lock, one⟩ := (kept.arrive ticket path).exists_oneLock
      obtain ⟨one, sound⟩ := one.run_turns ((h.perform enabled).arrive fresh path) after
      exact absurd (sound.length_builds_le_one one) (Nat.not_le.mpr two)

/-- The factory fails for the first of two visits: the lock is forgotten although the second one has
just been woken. -/
theorem builds_overlap_after_failure :
    ∃ start r : Registry, make 32 = .ok start ∧
      Run start [.arrive 0 "/a", .arrive 1 "/a"] r ∧ r.KeepsLock "/a" ∧ r.Enabled (.giveUp 0) ∧
      ∃ (ticket : Ticket) (turns : List Ticket) (s : Registry),
        Run (r.perform (.giveUp 0)) (.arrive ticket "/a" :: turns.map .turn) s ∧
          2 ≤ (s.builds "/a").length := by
  have run : Run ⟨32, by decide, [], [], 0, [], []⟩ [.arrive 0 "/a", .arrive 1 "/a"] _ :=
    .step (by decide) (.step (by decide) (.done _))
  refine ⟨_, _, rfl, run, by decide, by decide, ?_⟩
  have made : make 32 = .ok ⟨32, by decide, [], [], 0, [], []⟩ := rfl
  have exact := (builds_overlap_iff_lock_forgotten made run "/a").2 (by decide)
  exact (exact.2 (.giveUp 0) (by decide) rfl).mp (by decide)

/-- Builds of one path can overlap: the factory fails for the first visit, the second one builds
under the forgotten lock and the third one under a new lock. -/
theorem exists_overlapping_builds :
    ¬ ∀ (bound : Int) (start r : Registry) (events : List Event) (path : String),
      make bound = .ok start → Run start events r →
      (∀ event ∈ events, event.isClear = false) → (r.builds path).length ≤ 1 := by
  intro h
  have run : Run ⟨32, by decide, [], [], 0, [], []⟩
      [.arrive 0 "/a", .arrive 1 "/a", .giveUp 0, .turn 1, .arrive 2 "/a"] _ :=
    .step (by decide) (.step (by decide) (.step (by decide) (.step (by decide)
      (.step (by decide) (.done _)))))
  exact absurd (h 32 _ _ _ "/a" rfl run (by decide)) (by decide)

end VerbForms.Registry
