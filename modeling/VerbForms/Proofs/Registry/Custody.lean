import VerbForms.Proofs.Registry.Sound
import Mathlib.Data.List.Perm.Basic

/-!
# Custody of consoles

A registry has consoles in its cache, in visits that start them, and in operations that still have to
close them. The operations on locks and queues leave all of them where they are; visits, the cache and
closings are described by the consoles that they take over or give away.
-/

namespace VerbForms.Registry

variable {r s t : Registry} {v : Visit} {ticket : Ticket} {path : String} {console : ConsoleId}

/-- The console that a visit starts. -/
def Stage.started? : Stage → Option ConsoleId
  | .building made => made
  | _ => none

/-- The console that a visit closes because its start has failed. -/
def Stage.discarded? : Stage → Option ConsoleId
  | .discarding console => some console
  | _ => none

/-- The consoles that unfinished visits start. -/
def starting (r : Registry) : List ConsoleId := r.visits.filterMap (·.stage.started?)

/-- The consoles that unfinished operations still have to close. -/
def toClose (r : Registry) : List ConsoleId :=
  r.visits.filterMap (·.stage.discarded?) ++ r.closings.flatMap (·.left)

/-- The cached consoles, the least recently used one first. -/
def cachedConsoles (r : Registry) : List ConsoleId := r.cached.map Prod.snd

/-- All consoles that a registry has to care for. -/
def custody (r : Registry) : List ConsoleId := r.cachedConsoles ++ r.starting ++ r.toClose

/-- Operations under way have tickets of their own, and those that close have something to close. -/
structure Ticketed (r : Registry) : Prop where
  tickets : (r.visits.map Visit.ticket ++ r.closings.map Closing.ticket).Nodup
  left : ∀ c ∈ r.closings, c.left ≠ []

/-- From the first registry to the second only locks have changed, and stages that have no part in the
custody of consoles. -/
structure SameCustody (r s : Registry) : Prop where
  bound : s.bound = r.bound
  cached : s.cached = r.cached
  closings : s.closings = r.closings
  tickets : s.visits.map Visit.ticket = r.visits.map Visit.ticket
  starting : s.starting = r.starting
  discarded : s.visits.filterMap (·.stage.discarded?) = r.visits.filterMap (·.stage.discarded?)

theorem SameCustody.refl (r : Registry) : SameCustody r r := ⟨rfl, rfl, rfl, rfl, rfl, rfl⟩

theorem SameCustody.trans (first : SameCustody r s) (second : SameCustody s t) : SameCustody r t :=
  ⟨second.bound.trans first.bound, second.cached.trans first.cached,
    second.closings.trans first.closings, second.tickets.trans first.tickets,
    second.starting.trans first.starting, second.discarded.trans first.discarded⟩

theorem SameCustody.toClose (h : SameCustody r s) : s.toClose = r.toClose := by
  rw [Registry.toClose, Registry.toClose, h.discarded, h.closings]

theorem SameCustody.custody (h : SameCustody r s) : s.custody = r.custody := by
  rw [Registry.custody, Registry.custody, cachedConsoles, cachedConsoles, h.cached, h.starting,
    h.toClose]

theorem SameCustody.ticketed (h : SameCustody r s) (ticketed : Ticketed r) : Ticketed s := by
  refine ⟨?_, ?_⟩
  · rw [h.tickets, h.closings]
    exact ticketed.tickets
  · rw [h.closings]
    exact ticketed.left

/-! ### Locks and queues -/

theorem sameCustody_forgetLock (r : Registry) (path : String) (lock : LockId) :
    SameCustody r (r.forgetLock path lock) := by
  rcases forgetLock_eq r path lock with same | ⟨-, -, forgotten⟩
  · rw [same]
    exact SameCustody.refl r
  · rw [forgotten]
    exact ⟨rfl, rfl, rfl, rfl, rfl, rfl⟩

theorem sameCustody_forgetLockOf (r : Registry) (path : String) :
    SameCustody r (r.forgetLockOf path) := by
  rw [forgetLockOf]
  split
  · exact sameCustody_forgetLock r path _
  · exact SameCustody.refl r

theorem sameCustody_tidy (r : Registry) (path : String) (lock : LockId) :
    SameCustody r (r.tidy path lock) := by
  rw [tidy]
  split
  · exact SameCustody.refl r
  · exact sameCustody_forgetLock r path lock

/-- A visit may change to a stage that has the same console in the same use. -/
theorem sameCustody_setStage (distinct : (r.visits.map Visit.ticket).Nodup) (hv : v ∈ r.visits)
    {stage : Stage} (started : stage.started? = v.stage.started?)
    (discarded : stage.discarded? = v.stage.discarded?) :
    SameCustody r (r.setStage v.ticket stage) := by
  have same (use : Stage → Option ConsoleId) (hu : use stage = use v.stage) :
      (r.setStage v.ticket stage).visits.filterMap (fun u ↦ use u.stage) =
        r.visits.filterMap (fun u ↦ use u.stage) := by
    rw [Registry.setStage, List.filterMap_map]
    apply List.filterMap_congr
    intro u hm
    rw [Function.comp_apply]
    split
    · next ht =>
      rw [List.inj_on_of_nodup_map distinct hm hv ht]
      exact hu
    · rfl
  exact ⟨rfl, rfl, rfl, tickets_setStage r v.ticket stage, same _ started, same _ discarded⟩

theorem sameCustody_wakeFirst (distinct : (r.visits.map Visit.ticket).Nodup) (lock : LockId) :
    SameCustody r (r.wakeFirst lock).1 := by
  rcases wakeFirst_eq r lock with same | ⟨first, queued, waits, woken⟩
  · rw [same]
    exact SameCustody.refl r
  · rw [woken]
    apply sameCustody_setStage distinct (List.mem_of_mem_filter queued)
    · rw [waits]
      rfl
    · rw [waits]
      rfl

theorem sameCustody_leave (distinct : (r.visits.map Visit.ticket).Nodup) (v : Visit) :
    SameCustody (r.remove v.ticket) (r.leave v).1 :=
  (sameCustody_wakeFirst (tickets_remove distinct v.ticket) v.lock).trans
    (sameCustody_tidy _ v.path v.lock)

theorem sameCustody_quit (distinct : (r.visits.map Visit.ticket).Nodup) (v : Visit) :
    SameCustody (r.remove v.ticket) (r.quit v).1 := by
  cases held : (r.remove v.ticket).held v.lock with
  | true =>
    rw [quit_of_held held]
    exact sameCustody_tidy _ v.path v.lock
  | false =>
    rw [quit_of_free held]
    exact sameCustody_leave distinct v

/-! ### Visits -/

/-- The consoles that a visit in a stage has to care for. -/
def Stage.consoles (stage : Stage) : List ConsoleId := stage.started?.toList ++ stage.discarded?.toList

/-- A visit apart from the others. -/
theorem perm_remove (distinct : (r.visits.map Visit.ticket).Nodup) (hv : v ∈ r.visits) :
    r.visits.Perm (v :: (r.remove v.ticket).visits) := by
  have rest : (r.remove v.ticket).visits = r.visits.erase v := by
    rw [(List.Nodup.of_map _ distinct).erase_eq_filter, remove]
    apply List.filter_congr
    intro u hu
    have same : u.ticket = v.ticket ↔ u = v :=
      ⟨List.inj_on_of_nodup_map distinct hu hv, congrArg Visit.ticket⟩
    simp [bne, beq_eq_decide, same]
  rw [rest]
  exact List.perm_cons_erase hv

/-- A visit in its new stage apart from the others. -/
theorem perm_setStage (distinct : (r.visits.map Visit.ticket).Nodup) (hv : v ∈ r.visits)
    (stage : Stage) :
    (r.setStage v.ticket stage).visits.Perm
      ({ v with stage } :: (r.remove v.ticket).visits) := by
  have moved := (perm_remove distinct hv).map
    fun u ↦ if u.ticket = v.ticket then { u with stage } else u
  have rest : (r.remove v.ticket).visits.map
      (fun u ↦ if u.ticket = v.ticket then { u with stage } else u) =
        (r.remove v.ticket).visits := by
    conv_rhs => rw [← List.map_id (r.remove v.ticket).visits]
    apply List.map_congr_left
    intro u hu
    rw [remove, List.mem_filter] at hu
    rw [if_neg (by simpa using hu.2), id]
  rw [List.map_cons, if_pos rfl, rest] at moved
  exact moved

/-- Custody as the consoles of one visit and all others. -/
theorem perm_custody_of_visits {visits : List Visit}
    (split : r.visits.Perm (v :: visits)) :
    r.custody.Perm (v.stage.consoles ++ { r with visits }.custody) := by
  have uses (use : Stage → Option ConsoleId) :
      (r.visits.filterMap fun u ↦ use u.stage).Perm
        ((use v.stage).toList ++ visits.filterMap fun u ↦ use u.stage) := by
    have moved := split.filterMap fun u ↦ use u.stage
    rw [List.filterMap_cons] at moved
    cases hu : use v.stage <;> simpa [hu] using moved
  have started := uses Stage.started?
  have discarded := uses Stage.discarded?
  rw [List.perm_iff_count] at started discarded ⊢
  intro id
  have hs := started id
  have hd := discarded id
  simp only [custody, starting, toClose, Stage.consoles, cachedConsoles, List.count_append] at hs hd ⊢
  omega

theorem perm_custody_remove (distinct : (r.visits.map Visit.ticket).Nodup) (hv : v ∈ r.visits) :
    r.custody.Perm (v.stage.consoles ++ (r.remove v.ticket).custody) :=
  perm_custody_of_visits (perm_remove distinct hv)

theorem perm_custody_setStage (distinct : (r.visits.map Visit.ticket).Nodup) (hv : v ∈ r.visits)
    (stage : Stage) :
    (r.setStage v.ticket stage).custody.Perm (stage.consoles ++ (r.remove v.ticket).custody) :=
  perm_custody_of_visits (perm_setStage distinct hv stage)

/-! ### The cache -/

theorem perm_cached_touch (r : Registry) (path : String) (console : ConsoleId) :
    ((r.find? path).toList ++ (r.touch path console).cachedConsoles).Perm
      (console :: r.cachedConsoles) := by
  have split := Assoc.perm_values_erase r.cached path
  rw [List.perm_iff_count] at split ⊢
  intro id
  have hs := split id
  simp only [cachedConsoles, touch, find?, List.map_append, List.map_cons, List.map_nil,
    List.count_append, List.count_cons, List.count_nil] at hs ⊢
  omega

theorem SameCustody.with_cached (h : SameCustody r s) (cached : List (String × ConsoleId)) :
    SameCustody { r with cached } { s with cached } :=
  ⟨h.bound, rfl, h.closings, h.tickets, h.starting, h.discarded⟩

/-- Eviction changes the cache and locks only. -/
theorem sameCustody_evict (r : Registry) (entries : List (String × ConsoleId)) :
    SameCustody { r with cached := (r.evict entries).1.cached } (r.evict entries).1 := by
  induction entries generalizing r with
  | nil => exact SameCustody.refl r
  | cons entry rest ih =>
    rw [evict]
    split
    · have forgotten := sameCustody_forgetLockOf { r with cached := rest } entry.1
      exact (forgotten.with_cached _).trans (ih _)
    · exact SameCustody.refl r

/-- What is evicted goes out at the front. -/
theorem evicted_append (entries : List (String × ConsoleId)) (cached : r.cached = entries) :
    (r.evict entries).2 ++ (r.evict entries).1.cachedConsoles = r.cachedConsoles := by
  induction entries generalizing r with
  | nil => rfl
  | cons entry rest ih =>
    rw [evict]
    split
    · have forgotten := forgetLockOf_cached { r with cached := rest } entry.1
      dsimp only
      rw [List.cons_append, ih forgotten, cachedConsoles, cachedConsoles, forgotten, cached,
        List.map_cons]
    · rfl

/-- After an eviction there is room for what is left. -/
theorem length_evict_le (entries : List (String × ConsoleId)) (cached : r.cached = entries) :
    (r.evict entries).1.cached.length ≤ r.bound := by
  induction entries generalizing r with
  | nil =>
    rw [evict, cached]
    exact Nat.zero_le r.bound
  | cons entry rest ih =>
    rw [evict]
    split
    · have forgotten := sameCustody_forgetLockOf { r with cached := rest } entry.1
      exact Nat.le_trans (ih forgotten.cached) (Nat.le_of_eq forgotten.bound)
    · next room => exact Nat.le_of_not_lt room

/-- An insertion changes the cache and locks only. -/
theorem sameCustody_insert (r : Registry) (path : String) (console : ConsoleId) :
    SameCustody { r with cached := (r.insert path console).1.cached } (r.insert path console).1 :=
  sameCustody_evict (r.touch path console) _

/-- An insertion makes room by taking consoles out, and each of them is to be closed. -/
theorem perm_cached_insert (new : r.find? path ≠ some console) :
    ((r.insert path console).2 ++ (r.insert path console).1.cachedConsoles).Perm
      (console :: r.cachedConsoles) := by
  have displaced : (r.find? path).toList.filter (· != console) = (r.find? path).toList := by
    apply List.filter_eq_self.mpr
    intro old hm
    rw [Option.mem_toList] at hm
    have other : old ≠ console := fun same ↦ new (same ▸ hm)
    simpa using other
  have evicted := evicted_append (r := r.touch path console) _ rfl
  rw [insert, displaced, List.append_assoc, evicted]
  exact perm_cached_touch r path console

theorem length_insert_le (r : Registry) (path : String) (console : ConsoleId) :
    (r.insert path console).1.cached.length ≤ r.bound :=
  length_evict_le (r := r.touch path console) _ rfl

/-! ### Closings -/

/-- An operation begins to close consoles, if there are any. -/
def close (r : Registry) (ticket : Ticket) (stale : List ConsoleId) : Registry :=
  { r with closings := if stale.isEmpty then r.closings else r.closings ++ [⟨ticket, stale⟩] }

theorem perm_custody_close (r : Registry) (ticket : Ticket) (stale : List ConsoleId) :
    (r.close ticket stale).custody.Perm (stale ++ r.custody) := by
  rw [List.perm_iff_count]
  intro id
  rw [close]
  split
  · next none => simp [List.isEmpty_iff.mp none, custody, toClose, starting, cachedConsoles]
  · simp only [custody, starting, toClose, cachedConsoles, List.flatMap_append, List.count_append,
      List.flatMap_cons, List.flatMap_nil, List.append_nil]
    omega

theorem SameCustody.close (h : SameCustody r s) (ticket : Ticket) (stale : List ConsoleId) :
    SameCustody (r.close ticket stale) (s.close ticket stale) :=
  ⟨h.bound, h.cached, by rw [Registry.close, Registry.close, h.closings], h.tickets, h.starting,
    h.discarded⟩

theorem keep_eq (found : r.visit? ticket = some v) (console : ConsoleId) :
    (r.keep ticket console).1 =
      ((r.insert v.path console).1.leave v).1.close ticket (r.insert v.path console).2 := by
  rw [keep, found]
  rfl

theorem reset_eq (r : Registry) (ticket : Ticket) (path : String) :
    (r.reset ticket path).1 =
      ({ r with cached := Assoc.erase r.cached path }.forgetLockOf path).close ticket
        (r.find? path).toList := by
  rw [reset, close]
  cases r.find? path with
  | none => simp
  | some console => rfl

theorem clear_eq (r : Registry) (ticket : Ticket) :
    (r.clear ticket).1 = { r with cached := [], locks := [] }.close ticket r.cachedConsoles := rfl

/-- What an operation that closes consoles has left after the first of them. -/
def Closing.next? (c : Closing) : Option Closing :=
  match c.left with
  | _ :: next :: rest => some { c with left := next :: rest }
  | _ => none

theorem closings_closed (r : Registry) (ticket : Ticket) :
    (r.closed ticket).closings =
      r.closings.filterMap fun c ↦ if c.ticket = ticket then c.next? else some c := rfl

theorem Closing.left_eq (c : Closing) :
    c.left = c.left.head?.toList ++ (c.next?.toList).flatMap (·.left) := by
  match left : c.left with
  | [] => simp [next?, left]
  | [first] => simp [next?, left]
  | first :: next :: rest => simp [next?, left]

/-- Where tickets are distinct, an operation that closes a console loses this one only. -/
theorem perm_left_closed {closings : List Closing}
    (distinct : (closings.map Closing.ticket).Nodup) (ticket : Ticket) :
    (closings.flatMap (·.left)).Perm
      (((closings.find? (·.ticket == ticket)).bind (·.left.head?)).toList ++
        (closings.filterMap fun c ↦
          if c.ticket = ticket then c.next? else some c).flatMap (·.left)) := by
  induction closings with
  | nil => exact List.Perm.refl []
  | cons c rest ih =>
    rw [List.map_cons, List.nodup_cons] at distinct
    by_cases ht : c.ticket = ticket
    · have others : rest.filterMap (fun d ↦ if d.ticket = ticket then d.next? else some d) = rest := by
        conv_rhs => rw [← List.filterMap_some (l := rest)]
        apply List.filterMap_congr
        intro d hd
        apply if_neg
        intro same
        exact distinct.1 (List.mem_map.mpr ⟨d, hd, same.trans ht.symm⟩)
      rw [List.find?_cons_of_pos (by simpa using ht), List.filterMap_cons, if_pos ht, others,
        List.flatMap_cons]
      have split := (List.Perm.of_eq c.left_eq).append_right (rest.flatMap (·.left))
      cases next : c.next? with
      | none =>
        rw [next] at split
        simpa using split
      | some d =>
        rw [next] at split
        simpa using split
    · rw [List.find?_cons_of_neg (by simpa using ht), List.filterMap_cons, if_neg ht]
      have tail := ih distinct.2
      rw [List.perm_iff_count] at tail ⊢
      intro id
      have hi := tail id
      simp only [List.flatMap_cons, List.count_append] at hi ⊢
      omega

end VerbForms.Registry
