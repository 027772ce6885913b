import VerbForms.Proofs.Registry.Sound

/-!
# Events that take away

Most events only take something away: visits go or come nearer to their end, locks are released,
consoles are taken out, and a lock is forgotten where nobody holds it and its path has no console.
-/

namespace VerbForms.Registry

variable {r s t : Registry} {v : Visit} {lock : LockId} {ticket : Ticket} {path : String}

/-- Stages of visits that build or may come to build. -/
def Stage.mayBuild : Stage → Bool
  | .waiting | .woken | .building _ => true
  | _ => false

/-- Every visit that may build in the second registry may do so in the first. -/
def FewerBuilders (r s : Registry) : Prop :=
  ∀ v ∈ s.visits, v.stage.mayBuild = true →
    ∃ u ∈ r.visits, u.stage.mayBuild = true ∧ u.path = v.path ∧ u.lock = v.lock

/-- From the first registry to the second nobody has arrived, taken a lock or brought a console,
and only locks that nobody holds have been forgotten, of paths without a console. -/
structure Shrinks (r s : Registry) : Prop where
  fewer : FewerBuilders r s
  free : ∀ lock, r.held lock = false → s.held lock = false
  uncached : ∀ path, r.find? path = none → s.find? path = none
  locks : ∀ path, Assoc.get? s.locks path = Assoc.get? r.locks path ∨
    Assoc.get? s.locks path = none ∧ s.find? path = none ∧
      ∀ lock, Assoc.get? r.locks path = some lock → s.held lock = false

theorem Shrinks.refl (r : Registry) : Shrinks r r :=
  ⟨fun v hv hb ↦ ⟨v, hv, hb, rfl, rfl⟩, fun _ h ↦ h, fun _ h ↦ h, fun _ ↦ .inl rfl⟩

theorem Shrinks.trans (first : Shrinks r s) (second : Shrinks s t) : Shrinks r t := by
  refine ⟨?_, fun lock h ↦ second.free lock (first.free lock h),
    fun path h ↦ second.uncached path (first.uncached path h), ?_⟩
  · intro v hv hb
    obtain ⟨u, hu, hub, hup, hul⟩ := second.fewer v hv hb
    obtain ⟨w, hw, hwb, hwp, hwl⟩ := first.fewer u hu hub
    exact ⟨w, hw, hwb, hwp.trans hup, hwl.trans hul⟩
  · intro path
    rcases first.locks path with hf | ⟨hn, hc, hh⟩
    · rcases second.locks path with hs | ⟨hn, hc, hh⟩
      · exact .inl (hs.trans hf)
      · exact .inr ⟨hn, hc, fun lock hl ↦ hh lock (hf.trans hl)⟩
    · right
      have gone : Assoc.get? t.locks path = none := by
        rcases second.locks path with hs | ⟨hs, -, -⟩
        · exact hs.trans hn
        · exact hs
      exact ⟨gone, second.uncached path hc, fun lock hl ↦ second.free lock (hh lock hl)⟩

/-- Closings have no part in what shrinks. -/
theorem Shrinks.of_closings (h : Shrinks r s) (closings : List Closing) :
    Shrinks r { s with closings } :=
  ⟨h.fewer, h.free, h.uncached, h.locks⟩

theorem shrinks_remove (r : Registry) (ticket : Ticket) : Shrinks r (r.remove ticket) := by
  refine ⟨fun v hv hb ↦ ⟨v, List.mem_of_mem_filter hv, hb, rfl, rfl⟩, ?_, fun _ h ↦ h,
    fun _ ↦ .inl rfl⟩
  intro lock free
  rw [held_eq_any_line, List.any_eq_false] at free ⊢
  rw [line_remove]
  exact fun v hv ↦ free v (List.mem_of_mem_filter hv)

theorem fewerBuilders_setStage (r : Registry) (ticket : Ticket) {stage : Stage}
    (build : stage.mayBuild = true → ∀ v ∈ r.visits, v.ticket = ticket → v.stage.mayBuild = true) :
    FewerBuilders r (r.setStage ticket stage) := by
  intro v hv hb
  obtain ⟨u, hu, rfl⟩ := List.mem_map.mp hv
  by_cases ht : u.ticket = ticket
  · rw [if_pos ht] at hb ⊢
    exact ⟨u, hu, build hb u hu ht, rfl, rfl⟩
  · rw [if_neg ht] at hb ⊢
    exact ⟨u, hu, hb, rfl, rfl⟩

/-- A visit that does not begin to hold its lock or to be able to build. -/
theorem shrinks_setStage (r : Registry) (ticket : Ticket) {stage : Stage}
    (build : stage.mayBuild = true → ∀ v ∈ r.visits, v.ticket = ticket → v.stage.mayBuild = true)
    (holds : stage.holds = true → ∀ v ∈ r.visits, v.ticket = ticket → v.stage.holds = true) :
    Shrinks r (r.setStage ticket stage) := by
  refine ⟨fewerBuilders_setStage r ticket build, ?_, fun _ h ↦ h, fun _ ↦ .inl rfl⟩
  intro lock free
  rw [held_eq_any_line, List.any_eq_false] at free ⊢
  rw [line_setStage]
  intro v hv hh
  obtain ⟨u, hu, rfl⟩ := List.mem_map.mp hv
  by_cases ht : u.ticket = ticket
  · rw [if_pos ht] at hh
    exact free u hu (holds hh u (mem_line.mp hu).1 ht)
  · rw [if_neg ht] at hh
    exact free u hu hh

theorem shrinks_wakeFirst (h : (r.visits.map Visit.ticket).Nodup) (lock : LockId) :
    Shrinks r (r.wakeFirst lock).1 := by
  rcases wakeFirst_eq r lock with he | ⟨first, hf, hw, he⟩
  · rw [he]
    exact Shrinks.refl r
  · rw [he]
    refine shrinks_setStage r first.ticket (fun _ v hv ht ↦ ?_) (fun hh ↦ by cases hh)
    rw [List.inj_on_of_nodup_map h hv (List.mem_of_mem_filter hf) ht, hw]
    rfl

/-- A lock is forgotten only where nobody holds it. -/
theorem shrinks_forgetLock (keys : (Assoc.keys r.locks).Nodup) (absent : r.find? path = none)
    (lock : LockId) : Shrinks r (r.forgetLock path lock) := by
  rcases forgetLock_eq r path lock with he | ⟨free, registered, he⟩
  · rw [he]
    exact Shrinks.refl r
  · rw [he]
    refine ⟨fun v hv hb ↦ ⟨v, hv, hb, rfl, rfl⟩, fun _ h ↦ h, fun _ h ↦ h, fun key ↦ ?_⟩
    by_cases hk : path = key
    · rw [← hk, Assoc.get?_erase_self keys]
      refine .inr ⟨rfl, absent, fun other ho ↦ ?_⟩
      rw [registered] at ho
      exact Option.some.inj ho ▸ free
    · exact .inl (Assoc.get?_erase_of_ne hk r.locks)

theorem shrinks_forgetLockOf (keys : (Assoc.keys r.locks).Nodup) (absent : r.find? path = none) :
    Shrinks r (r.forgetLockOf path) := by
  rw [forgetLockOf]
  split
  · exact shrinks_forgetLock keys absent _
  · exact Shrinks.refl r

theorem shrinks_tidy (keys : (Assoc.keys r.locks).Nodup) (path : String) (lock : LockId) :
    Shrinks r (r.tidy path lock) := by
  rw [tidy]
  split
  · exact Shrinks.refl r
  · next absent => exact shrinks_forgetLock keys (by simpa using absent) lock

theorem Sound.shrinks_leave (h : Sound r) (hv : v ∈ r.visits) (hs : v.stage.isPassive = false) :
    Shrinks r (r.leave v).1 := by
  have woken := h.remove_wakeFirst hv (h.held_remove hv hs)
  exact ((shrinks_remove r v.ticket).trans
    (shrinks_wakeFirst (tickets_remove h.tickets _) v.lock)).trans
    (shrinks_tidy woken.lockKeys v.path v.lock)

theorem Sound.shrinks_quit (h : Sound r) (hv : v ∈ r.visits) : Shrinks r (r.quit v).1 := by
  cases hh : (r.remove v.ticket).held v.lock with
  | true =>
    rw [quit_of_held hh]
    exact (shrinks_remove r v.ticket).trans
      (shrinks_tidy (h.remove_of_held hv hh).lockKeys v.path v.lock)
  | false =>
    rw [quit_of_free hh]
    exact ((shrinks_remove r v.ticket).trans
      (shrinks_wakeFirst (tickets_remove h.tickets _) v.lock)).trans
      (shrinks_tidy (h.remove_wakeFirst hv hh).lockKeys v.path v.lock)

/-- Consoles are taken out. -/
theorem shrinks_of_cached (r : Registry) {cached : List (String × ConsoleId)}
    (fewer : cached.Sublist r.cached) : Shrinks r { r with cached } := by
  refine ⟨fun v hv hb ↦ ⟨v, hv, hb, rfl, rfl⟩, fun _ h ↦ h, fun path absent ↦ ?_,
    fun _ ↦ .inl rfl⟩
  rw [find?, Assoc.get?_eq_none_iff] at absent ⊢
  exact fun hm ↦ absent ((fewer.map Prod.fst).subset hm)

theorem Sound.shrinks_evict (h : Sound r) (entries : List (String × ConsoleId))
    (cached : r.cached = entries) : Shrinks r (r.evict entries).1 := by
  induction entries generalizing r with
  | nil => exact Shrinks.refl r
  | cons entry rest ih =>
    rw [Registry.evict]
    split
    · have keys := List.nodup_cons.mp (cached ▸ h.cachedKeys)
      have fewer : rest.Sublist r.cached := cached ▸ List.sublist_cons_self entry rest
      have taken := shrinks_of_cached r fewer
      have sound := h.of_tables r.closings keys.2 (List.Sublist.refl r.locks)
      have absent : find? { r with cached := rest } entry.1 = none :=
        (Assoc.get?_eq_none_iff rest entry.1).mpr keys.1
      exact (taken.trans (shrinks_forgetLockOf h.lockKeys absent)).trans
        (ih (sound.forgetLockOf entry.1) (forgetLockOf_cached _ entry.1))
    · exact Shrinks.refl r

/-! ### Single visits -/

theorem Sound.fewerBuilders_setStage (h : Sound r) (hv : v ∈ r.visits) {stage : Stage}
    (build : v.stage.mayBuild = true) : FewerBuilders r (r.setStage v.ticket stage) :=
  Registry.fewerBuilders_setStage r v.ticket fun _ _ hu ht ↦
    List.inj_on_of_nodup_map h.tickets hu hv ht ▸ build

/-- A turn makes nobody able to build who was not. -/
theorem Sound.fewerBuilders_resume (h : Sound r) {result : Registry × TurnEnd × Option Ticket}
    (resumes : r.Resumes ticket result) : FewerBuilders r result.1 := by
  cases resumes with
  | found mem woken => exact ((h.touch _ _).shrinks_leave mem (by rw [woken]; rfl)).fewer
  | builds mem woken => exact h.fewerBuilders_setStage mem (by rw [woken]; rfl)
  | quits mem => exact (h.shrinks_quit mem).fewer

theorem Sound.shrinks_setStage (h : Sound r) (hv : v ∈ r.visits) {stage : Stage}
    (build : stage.mayBuild = true → v.stage.mayBuild = true)
    (holds : stage.holds = true → v.stage.holds = true) :
    Shrinks r (r.setStage v.ticket stage) :=
  Registry.shrinks_setStage r v.ticket
    (fun hb _ hu ht ↦ List.inj_on_of_nodup_map h.tickets hu hv ht ▸ build hb)
    (fun hh _ hu ht ↦ List.inj_on_of_nodup_map h.tickets hu hv ht ▸ holds hh)

theorem Sound.shrinks_cancel (h : Sound r)
    (enabled : (r.stage? ticket).any Stage.canCancel = true) : Shrinks r (r.cancel ticket).1 := by
  obtain ⟨v, hv, rfl, hs, ht⟩ := h.exists_of_stage? enabled
  rw [Registry.cancel, hs, Option.map_some]
  cases stage : v.stage with
  | waiting | woken => exact h.shrinks_setStage hv (fun hb ↦ by cases hb) (fun hh ↦ by cases hh)
  | withdrawn | dismissed | building | discarding => rw [stage] at ht; cases ht

theorem Sound.shrinks_fail (h : Sound r)
    (enabled : (r.stage? ticket).any Stage.starts = true) : Shrinks r (r.fail ticket).1 := by
  obtain ⟨v, hv, rfl, hs, ht⟩ := h.exists_of_stage? enabled
  rw [Registry.fail, hs, Option.map_some]
  split
  · exact h.shrinks_setStage hv (fun hb ↦ by cases hb) (fun _ ↦ Stage.holds_of_starts ht)
  · exact Shrinks.refl r

/-- The console of a path is taken out, and its lock is forgotten if nobody holds it. -/
theorem Sound.shrinks_reset (h : Sound r) (ticket : Ticket) (path : String) :
    Shrinks r (r.reset ticket path).1 := by
  have taken := shrinks_of_cached r (Assoc.erase_sublist r.cached path)
  have absent : find? { r with cached := Assoc.erase r.cached path } path = none :=
    Assoc.get?_erase_self h.cachedKeys path
  exact (taken.trans (shrinks_forgetLockOf h.lockKeys absent)).of_closings _

end VerbForms.Registry
