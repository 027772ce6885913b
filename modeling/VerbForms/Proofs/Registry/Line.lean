import VerbForms.Proofs.Registry.Run
import Mathlib.Data.List.Basic
import Mathlib.Data.List.Nodup

/-!
# The line at a lock

The visits that use one lock, in order of arrival: at most one of them holds the lock or has been
woken, and where nobody holds the lock the first one need not wait any more. The operations on
visits are described by what they do to the lines.
-/

namespace VerbForms.Registry

/-- Stages in which a visit waits for others to act, or only has its leaving left. -/
def Stage.isPassive : Stage → Bool
  | .waiting | .withdrawn => true
  | _ => false

/-- The visits that use a lock, in order of arrival. -/
def line (r : Registry) (lock : LockId) : List Visit := r.visits.filter (·.lock == lock)

/-- The order that a line keeps. -/
structure Orderly (visits : List Visit) : Prop where
  single : visits.Pairwise fun u v ↦ u.stage.isPassive = true ∨ v.stage.isPassive = true
  awake : visits.any (·.stage.holds) = true ∨
    (∀ first ∈ visits.head?, first.stage ≠ .waiting) ∧
      ∀ v ∈ visits.tail, v.stage.isPassive = true

/-- A line whose first visit is woken if it waits. -/
def wakeHead : List Visit → List Visit
  | first :: rest =>
    (if first.stage = .waiting then { first with stage := .woken } else first) :: rest
  | [] => []

/-! ### Lines as lists -/

theorem Stage.holds_of_isPassive {stage : Stage} (h : stage.isPassive = true) :
    stage.holds = false := by
  cases stage <;> first | rfl | cases h

theorem Stage.holds_of_produces {stage : Stage} (h : stage.produces = true) :
    stage.holds = true := by
  cases stage <;> first | rfl | cases h

theorem Stage.holds_of_starts {stage : Stage} (h : stage.starts = true) : stage.holds = true := by
  cases stage <;> first | rfl | cases h

theorem Stage.holds_of_canGiveUp {stage : Stage} (h : stage.canGiveUp = true) :
    stage.holds = true := by
  cases stage <;> first | rfl | cases h

/-- A visit that holds its lock is not passive. -/
theorem Stage.not_isPassive_of_holds {stage : Stage} (h : stage.holds = true) :
    stage.isPassive = false := by
  cases stage <;> first | rfl | cases h

theorem any_holds_of_passive {visits : List Visit} (h : ∀ v ∈ visits, v.stage.isPassive = true) :
    visits.any (·.stage.holds) = false := by
  rw [List.any_eq_false]
  intro v hv
  simp [Stage.holds_of_isPassive (h v hv)]

theorem length_wakeHead (visits : List Visit) : (wakeHead visits).length = visits.length := by
  cases visits <;> rfl

theorem orderly_nil : Orderly [] := ⟨List.Pairwise.nil, .inr ⟨by simp, by simp⟩⟩

/-- Beside a visit that holds the lock or has been woken all others are passive. -/
theorem Orderly.others {before after : List Visit} {v : Visit}
    (h : Orderly (before ++ v :: after)) (hv : v.stage.isPassive = false) :
    ∀ u ∈ before ++ after, u.stage.isPassive = true := by
  have hp := List.pairwise_append.mp h.single
  have hc := List.pairwise_cons.mp hp.2.1
  intro u hu
  rcases List.mem_append.mp hu with hu | hu
  · simpa [hv] using hp.2.2 u hu v List.mem_cons_self
  · simpa [hv] using hc.1 u hu

/-- Where all are passive, waking the first gives an orderly line. -/
theorem orderly_wakeHead_of_passive {visits : List Visit}
    (h : ∀ v ∈ visits, v.stage.isPassive = true) : Orderly (wakeHead visits) := by
  cases visits with
  | nil => exact orderly_nil
  | cons first rest =>
    have hrest : ∀ v ∈ rest, v.stage.isPassive = true := fun v hv ↦ h v (List.mem_cons_of_mem _ hv)
    constructor
    · rw [wakeHead, List.pairwise_cons]
      refine ⟨fun v hv ↦ .inr (hrest v hv), ?_⟩
      exact List.pairwise_of_forall_mem_list fun u hu _ _ ↦ .inl (hrest u hu)
    · refine .inr ⟨?_, by simpa [wakeHead] using hrest⟩
      intro v hv
      rw [wakeHead, List.head?_cons, Option.mem_some_iff] at hv
      rw [← hv]
      split
      · exact Stage.noConfusion
      · assumption

/-- A visit leaves a line in which nobody else holds the lock, and the first one is woken. -/
theorem Orderly.leave {before after : List Visit} {v : Visit}
    (h : Orderly (before ++ v :: after))
    (free : (before ++ after).any (·.stage.holds) = false) :
    Orderly (wakeHead (before ++ after)) := by
  by_cases hv : v.stage.isPassive = true
  · -- The leaving visit was in the queue, so that the line was awake without it.
    have hfree : (before ++ v :: after).any (·.stage.holds) = false := by
      rw [List.any_append, Bool.or_eq_false_iff] at free
      rw [List.any_append, List.any_cons, Stage.holds_of_isPassive hv, free.1, free.2]
      rfl
    obtain ⟨hhead, htail⟩ := h.awake.resolve_left (by rw [hfree]; exact Bool.false_ne_true)
    cases before with
    | nil => exact orderly_wakeHead_of_passive htail
    | cons first before =>
      have hf : first.stage ≠ .waiting := hhead first rfl
      rw [List.cons_append, wakeHead, if_neg hf]
      refine ⟨h.single.sublist ?_, .inr ⟨by simpa using hf, ?_⟩⟩
      · exact (List.Sublist.append_left (List.sublist_cons_self v after) _).cons_cons first
      · intro u hu
        refine htail u ?_
        simp only [List.tail_cons, List.cons_append, List.mem_append, List.mem_cons] at hu ⊢
        exact hu.imp_right .inr
  · exact orderly_wakeHead_of_passive (h.others (Bool.not_eq_true _ ▸ hv))

/-- A visit leaves the queue of a lock that somebody else holds. -/
theorem Orderly.leave_held {before after : List Visit} {v : Visit}
    (h : Orderly (before ++ v :: after))
    (held : (before ++ after).any (·.stage.holds) = true) : Orderly (before ++ after) :=
  ⟨h.single.sublist (List.Sublist.append_left (List.sublist_cons_self v after) _), .inl held⟩

/-- A visit changes its stage without beginning to wait, to be awake or to let go of the lock. -/
theorem Orderly.replace {before after : List Visit} {v w : Visit}
    (h : Orderly (before ++ v :: after))
    (passive : w.stage.isPassive = false → v.stage.isPassive = false)
    (holds : v.stage.holds = true → w.stage.holds = true)
    (waiting : w.stage = .waiting → v.stage = .waiting) : Orderly (before ++ w :: after) := by
  constructor
  · have hp := List.pairwise_append.mp h.single
    have hc := List.pairwise_cons.mp hp.2.1
    have lift : v.stage.isPassive = true → w.stage.isPassive = true := by
      intro hv
      by_contra hw
      rw [passive (Bool.not_eq_true _ ▸ hw)] at hv
      exact Bool.false_ne_true hv
    refine List.pairwise_append.mpr ⟨hp.1, List.pairwise_cons.mpr ⟨?_, hc.2⟩, ?_⟩
    · exact fun u hu ↦ (hc.1 u hu).imp_left lift
    · intro u hu x hx
      rcases List.mem_cons.mp hx with rfl | hx
      · exact (hp.2.2 u hu v List.mem_cons_self).imp_right lift
      · exact hp.2.2 u hu x (List.mem_cons_of_mem _ hx)
  · rcases h.awake with hh | ⟨hhead, htail⟩
    · left
      simp only [List.any_append, List.any_cons, Bool.or_eq_true] at hh ⊢
      exact hh.imp_right (Or.imp_left holds)
    · right
      cases before with
      | nil =>
        refine ⟨?_, htail⟩
        simpa using fun hw ↦ hhead v rfl (waiting hw)
      | cons first before =>
        refine ⟨hhead, ?_⟩
        intro u hu
        simp only [List.cons_append, List.tail_cons, List.mem_append, List.mem_cons] at hu htail
        rcases hu with hu | rfl | hu
        · exact htail u (.inl hu)
        · by_contra hw
          have hv := htail v (.inr (.inl rfl))
          rw [passive (Bool.not_eq_true _ ▸ hw)] at hv
          exact Bool.false_ne_true hv
        · exact htail u (.inr (.inr hu))

/-- A newcomer takes a lock that is free. -/
theorem Orderly.take {visits : List Visit} {v : Visit} (free : ∀ u ∈ visits, u.stage = .withdrawn)
    (hv : v.stage.holds = true) : Orderly (visits ++ [v]) := by
  have passive : ∀ u ∈ visits, u.stage.isPassive = true := fun u hu ↦ by rw [free u hu]; rfl
  constructor
  · rw [List.pairwise_append]
    refine ⟨List.pairwise_of_forall_mem_list fun u hu _ _ ↦ .inl (passive u hu),
      List.pairwise_singleton _ _, fun u hu _ _ ↦ .inl (passive u hu)⟩
  · left
    simp [hv]

/-- A newcomer joins the queue of a lock that is not free. -/
theorem Orderly.join {visits : List Visit} {v : Visit} (h : Orderly visits) (ne : visits ≠ [])
    (hv : v.stage.isPassive = true) : Orderly (visits ++ [v]) := by
  constructor
  · rw [List.pairwise_append]
    refine ⟨h.single, List.pairwise_singleton _ _, fun _ _ x hx ↦ .inr ?_⟩
    rw [List.mem_singleton.mp hx]
    exact hv
  · rcases h.awake with hh | ⟨hhead, htail⟩
    · left
      rw [List.any_append, hh, Bool.true_or]
    · right
      cases visits with
      | nil => exact absurd rfl ne
      | cons first rest =>
        refine ⟨hhead, ?_⟩
        simp only [List.cons_append, List.tail_cons, List.mem_append, List.mem_singleton] at htail ⊢
        rintro u (hu | rfl)
        · exact htail u hu
        · exact hv

/-! ### Lines under the operations on visits -/

variable {r : Registry} {v : Visit} {lock : LockId} {ticket : Ticket}

theorem mem_line : v ∈ r.line lock ↔ v ∈ r.visits ∧ v.lock = lock := by
  simp [line]

theorem held_eq_any_line (r : Registry) (lock : LockId) :
    r.held lock = (r.line lock).any (·.stage.holds) := by
  rw [line, List.any_filter]
  rfl

theorem queue_eq_filter_line (r : Registry) (lock : LockId) :
    r.queue lock = (r.line lock).filter (!·.stage.holds) := by
  rw [line, List.filter_filter, queue]
  exact List.filter_congr fun v _ ↦ Bool.and_comm _ _

/-- Where nobody holds a lock, its queue is the whole line. -/
theorem queue_eq_line (free : r.held lock = false) : r.queue lock = r.line lock := by
  rw [queue_eq_filter_line, List.filter_eq_self]
  rw [held_eq_any_line, List.any_eq_false] at free
  exact fun v hv ↦ by simpa using free v hv

theorem visit?_eq_some_iff (distinct : (r.visits.map Visit.ticket).Nodup) :
    r.visit? ticket = some v ↔ v ∈ r.visits ∧ v.ticket = ticket := by
  constructor
  · intro h
    exact ⟨List.mem_of_find?_eq_some h, by simpa using List.find?_some h⟩
  · rintro ⟨hv, rfl⟩
    obtain ⟨u, hu⟩ : ∃ u, r.visit? v.ticket = some u := by
      rw [← Option.isSome_iff_exists, visit?, List.find?_isSome]
      exact ⟨v, hv, by simp⟩
    have ht : u.ticket = v.ticket := by simpa using List.find?_some hu
    rw [hu, List.inj_on_of_nodup_map distinct (List.mem_of_find?_eq_some hu) hv ht]

/-- A visit splits the line it stands in. -/
theorem exists_line_split (distinct : (r.visits.map Visit.ticket).Nodup) (hv : v ∈ r.visits) :
    ∃ before after, r.line v.lock = before ++ v :: after ∧
      ∀ u ∈ before ++ after, u.ticket ≠ v.ticket := by
  obtain ⟨before, after, hl⟩ := List.append_of_mem (mem_line.mpr ⟨hv, rfl⟩)
  refine ⟨before, after, hl, ?_⟩
  have hd : ((r.line v.lock).map Visit.ticket).Nodup :=
    distinct.sublist (List.filter_sublist.map Visit.ticket)
  rw [hl, List.map_append, List.map_cons, List.nodup_middle, List.nodup_cons] at hd
  intro u hu he
  rw [← List.map_append] at hd
  exact hd.1 (he ▸ List.mem_map_of_mem hu)

/-- A visit has no namesake in the line of another lock. -/
theorem ticket_ne_of_mem_line (distinct : (r.visits.map Visit.ticket).Nodup) (hv : v ∈ r.visits)
    (ne : lock ≠ v.lock) : ∀ u ∈ r.line lock, u.ticket ≠ v.ticket := by
  intro u hu ht
  obtain ⟨hm, hl⟩ := mem_line.mp hu
  rw [List.inj_on_of_nodup_map distinct hm hv ht] at hl
  exact ne hl.symm

private theorem map_setStage_of_ne {visits : List Visit} (stage : Stage)
    (h : ∀ u ∈ visits, u.ticket ≠ ticket) :
    visits.map (fun u ↦ if u.ticket = ticket then { u with stage } else u) = visits :=
  (List.map_congr_left fun u hu ↦ if_neg (h u hu)).trans (List.map_id' visits)

private theorem filter_ticket_of_ne {visits : List Visit} (h : ∀ u ∈ visits, u.ticket ≠ ticket) :
    visits.filter (·.ticket != ticket) = visits :=
  List.filter_eq_self.mpr fun u hu ↦ by simpa using h u hu

theorem line_setStage (r : Registry) (ticket : Ticket) (stage : Stage) (lock : LockId) :
    (r.setStage ticket stage).line lock =
      (r.line lock).map fun u ↦ if u.ticket = ticket then { u with stage } else u := by
  rw [line, line, setStage, List.filter_map]
  congr 1
  refine List.filter_congr fun u _ ↦ ?_
  rw [Function.comp_apply]
  split <;> rfl

theorem line_remove (r : Registry) (ticket : Ticket) (lock : LockId) :
    (r.remove ticket).line lock = (r.line lock).filter (·.ticket != ticket) := by
  rw [line, line, remove, List.filter_filter, List.filter_filter]
  exact List.filter_congr fun u _ ↦ Bool.and_comm _ _

theorem line_setStage_self {before after : List Visit} (stage : Stage)
    (split : r.line v.lock = before ++ v :: after)
    (others : ∀ u ∈ before ++ after, u.ticket ≠ v.ticket) :
    (r.setStage v.ticket stage).line v.lock = before ++ { v with stage } :: after := by
  obtain ⟨hb, ha⟩ := List.forall_mem_append.mp others
  rw [line_setStage, split, List.map_append, List.map_cons, if_pos rfl, map_setStage_of_ne _ hb,
    map_setStage_of_ne _ ha]

theorem line_setStage_of_ne (distinct : (r.visits.map Visit.ticket).Nodup) (hv : v ∈ r.visits)
    (stage : Stage) (ne : lock ≠ v.lock) :
    (r.setStage v.ticket stage).line lock = r.line lock := by
  rw [line_setStage, map_setStage_of_ne _ (ticket_ne_of_mem_line distinct hv ne)]

theorem line_remove_self {before after : List Visit} (split : r.line v.lock = before ++ v :: after)
    (others : ∀ u ∈ before ++ after, u.ticket ≠ v.ticket) :
    (r.remove v.ticket).line v.lock = before ++ after := by
  obtain ⟨hb, ha⟩ := List.forall_mem_append.mp others
  rw [line_remove, split, List.filter_append, List.filter_cons, if_neg (by simp),
    filter_ticket_of_ne hb, filter_ticket_of_ne ha]

theorem line_remove_of_ne (distinct : (r.visits.map Visit.ticket).Nodup) (hv : v ∈ r.visits)
    (ne : lock ≠ v.lock) : (r.remove v.ticket).line lock = r.line lock := by
  rw [line_remove, filter_ticket_of_ne (ticket_ne_of_mem_line distinct hv ne)]

theorem line_newcomer (r : Registry) (v : Visit) (lock : LockId) :
    ({ r with visits := r.visits ++ [v] } : Registry).line lock =
      r.line lock ++ if v.lock = lock then [v] else [] := by
  rw [line, line, List.filter_append]
  by_cases hl : v.lock = lock <;> simp [hl]

/-- In the line of a free lock there are only visits that leave. -/
theorem withdrawn_of_isFree (h : r.isFree lock = true) :
    ∀ u ∈ r.line lock, u.stage = .withdrawn := by
  have hf := Bool.and_eq_true_iff.mp h
  have free : r.held lock = false := by simpa using hf.1
  rw [queue_eq_line free, List.all_eq_true] at hf
  exact fun u hu ↦ by simpa using hf.2 u hu

/-- The line of a lock that is not free is not empty. -/
theorem line_ne_nil_of_not_isFree (h : r.isFree lock = false) : r.line lock ≠ [] := by
  intro hl
  have free : r.held lock = false := by rw [held_eq_any_line, hl]; rfl
  rw [isFree, queue_eq_line free, free, hl] at h
  exact absurd h (by decide)

theorem tickets_setStage (r : Registry) (ticket : Ticket) (stage : Stage) :
    (r.setStage ticket stage).visits.map Visit.ticket = r.visits.map Visit.ticket := by
  rw [setStage, List.map_map]
  refine List.map_congr_left fun u _ ↦ ?_
  rw [Function.comp_apply]
  split <;> rfl

/-- Waking changes the stage of one visit at most. -/
theorem wakeFirst_eq (r : Registry) (lock : LockId) :
    (r.wakeFirst lock).1 = r ∨
      ∃ first ∈ r.queue lock, first.stage = .waiting ∧
        (r.wakeFirst lock).1 = r.setStage first.ticket .woken := by
  rw [wakeFirst]
  split
  · next first rest hq =>
    split
    · next hw => exact .inr ⟨first, by rw [hq]; exact List.mem_cons_self, hw, rfl⟩
    · exact .inl rfl
  · exact .inl rfl

theorem wakeFirst_locks (r : Registry) (lock : LockId) : (r.wakeFirst lock).1.locks = r.locks := by
  rcases wakeFirst_eq r lock with he | ⟨first, -, -, he⟩ <;> rw [he]
  rfl

/-- Where nobody holds a lock, its line is woken at the head and the other lines stay. -/
theorem line_wakeFirst (distinct : (r.visits.map Visit.ticket).Nodup)
    (free : r.held lock = false) (other : LockId) :
    (r.wakeFirst lock).1.line other =
      if other = lock then wakeHead (r.line lock) else r.line other := by
  rw [wakeFirst, queue_eq_line free]
  cases hl : r.line lock with
  | nil =>
    dsimp only
    split
    · next he => rw [he, hl, wakeHead]
    · rfl
  | cons first rest =>
    have hf : first ∈ r.visits ∧ first.lock = lock := mem_line.mp (by rw [hl]; simp)
    dsimp only
    rw [wakeHead]
    by_cases hw : first.stage = .waiting
    · rw [if_pos hw, if_pos hw]
      split
      · next he =>
        have hs : r.line first.lock = [] ++ first :: rest := by rw [hf.2, hl]; rfl
        have hd : ((r.line lock).map Visit.ticket).Nodup :=
          distinct.sublist (List.filter_sublist.map Visit.ticket)
        rw [hl, List.map_cons, List.nodup_cons] at hd
        have ho : ∀ u ∈ [] ++ rest, u.ticket ≠ first.ticket :=
          fun u hu ht ↦ hd.1 (ht ▸ List.mem_map_of_mem hu)
        rw [he, ← hf.2, line_setStage_self _ hs ho, List.nil_append]
      · next hne => rw [line_setStage_of_ne distinct hf.1 _ (by rw [hf.2]; exact hne)]
    · rw [if_neg hw, if_neg hw]
      split
      · next he => rw [he, hl]
      · rfl

end VerbForms.Registry
