import VerbForms.Proofs.Registry.Passage

/-!
# Clients of one path

As long as no build fails and the console of a path stays where it is, the factory is called for the path
once, whatever visits come and however they interleave, and all visits to the path that end with a console
have that one. A newcomer that does not find the console meets the build under the lock of the path, which
the build keeps registered; a visit that has been woken looks for the console again before it builds.
-/

namespace VerbForms.Registry

variable {r s : Registry} {v : Visit} {lock : LockId} {ticket : Ticket} {path key : String}
variable {console : ConsoleId} {event : Event} {events : List Event}

/-- What is noticed of a path while events happen, in order. -/
def log (path : String) : Registry → List Event → List Note
  | _, [] => []
  | r, event :: events => (r.note path event).toList ++ log path (r.perform event) events

/-- Whether a console that the path has stays there while events happen. -/
def Retains (path : String) : Registry → List Event → Prop
  | _, [] => True
  | r, event :: events =>
    ((r.find? path).isSome = true → ((r.perform event).find? path).isSome = true) ∧
      Retains path (r.perform event) events

instance decidableRetains (path : String) : (r : Registry) → (events : List Event) →
    Decidable (r.Retains path events)
  | _, [] => inferInstanceAs (Decidable True)
  | r, event :: events =>
    have := decidableRetains path (r.perform event) events
    inferInstanceAs (Decidable (_ ∧ _))

/-- The console that the factory has made. -/
def Note.made? : Note → Option ConsoleId
  | .made console => some console
  | _ => none

/-! ### Paths of visits -/

/-- The paths of the visits. -/
def paths (r : Registry) : List String := r.visits.map Visit.path

theorem paths_setStage (r : Registry) (ticket : Ticket) (stage : Stage) :
    (r.setStage ticket stage).paths = r.paths := by
  rw [paths, setStage, List.map_map]
  apply List.map_congr_left
  intro u _
  rw [Function.comp_apply]
  split
  · rfl
  · rfl

theorem paths_remove_subset (r : Registry) (ticket : Ticket) : (r.remove ticket).paths ⊆ r.paths :=
  (List.filter_sublist.map Visit.path).subset

theorem paths_wakeFirst (r : Registry) (lock : LockId) : (r.wakeFirst lock).1.paths = r.paths := by
  rcases wakeFirst_eq r lock with same | ⟨first, -, -, woken⟩
  · rw [same]
  · rw [woken]
    exact paths_setStage r first.ticket .woken

theorem paths_tidy (r : Registry) (key : String) (lock : LockId) :
    (r.tidy key lock).paths = r.paths := by
  obtain ⟨locks, same⟩ := r.tidy_with key lock
  rw [same]
  rfl

theorem paths_leave_subset (r : Registry) (v : Visit) : (r.leave v).1.paths ⊆ r.paths := by
  show (((r.remove v.ticket).wakeFirst v.lock).1.tidy v.path v.lock).paths ⊆ r.paths
  rw [paths_tidy, paths_wakeFirst]
  exact r.paths_remove_subset v.ticket

theorem paths_quit_subset (r : Registry) (v : Visit) : (r.quit v).1.paths ⊆ r.paths := by
  cases held : (r.remove v.ticket).held v.lock with
  | true =>
    rw [quit_of_held held, paths_tidy]
    exact r.paths_remove_subset v.ticket
  | false =>
    rw [quit_of_free held]
    exact r.paths_leave_subset v

theorem paths_arrive_subset (r : Registry) (ticket : Ticket) (key : String) :
    (r.arrive ticket key).1.paths ⊆ r.paths ++ [key] := by
  have table : (r.lockFor key).1.visits = r.visits := lockFor_visits r key
  rw [arrive]
  split
  · exact List.subset_append_left r.paths [key]
  · dsimp only
    split
    · rw [paths, table, List.map_append]
      exact List.Subset.refl _
    · rw [paths, table, List.map_append]
      exact List.Subset.refl _

theorem paths_resume_subset (r : Registry) (ticket : Ticket) :
    (r.resume ticket).1.paths ⊆ r.paths := by
  rw [resume]
  split
  · exact List.Subset.refl _
  · next v _ =>
    split
    · split
      · next console _ => exact (r.touch v.path console).paths_leave_subset v
      · rw [paths_setStage]
        exact List.Subset.refl _
    · exact r.paths_quit_subset v
    · exact r.paths_quit_subset v
    · exact List.Subset.refl _

theorem paths_keep_subset (r : Registry) (ticket : Ticket) (console : ConsoleId) :
    (r.keep ticket console).1.paths ⊆ r.paths := by
  rw [keep]
  split
  · exact List.Subset.refl _
  · next v _ =>
    have inserted : (r.insert v.path console).1.paths = r.paths := by
      rw [paths, paths, insert_visits]
    rw [← inserted]
    exact (r.insert v.path console).1.paths_leave_subset v

/-- Only an arrival brings a visit to a path. -/
theorem paths_perform_subset (r : Registry) (event : Event) :
    ∀ key ∈ (r.perform event).paths, key ∈ r.paths ∨ event.visits key = true := by
  have stay {s : Registry} (fewer : s.paths ⊆ r.paths) :
      ∀ key ∈ s.paths, key ∈ r.paths ∨ event.visits key = true :=
    fun _ mem ↦ .inl (fewer mem)
  cases event with
  | arrive ticket path =>
    intro key mem
    rcases List.mem_append.mp (r.paths_arrive_subset ticket path mem) with old | new
    · exact .inl old
    · right
      simpa [Event.visits] using (List.mem_singleton.mp new).symm
  | turn ticket => exact stay (r.paths_resume_subset ticket)
  | cancel ticket =>
    apply stay
    rw [perform, cancel]
    split
    · rw [paths_setStage]
      exact List.Subset.refl _
    · rw [paths_setStage]
      exact List.Subset.refl _
    · exact List.Subset.refl _
  | made ticket console => exact stay (r.paths_setStage ticket _ ▸ List.Subset.refl _)
  | keep ticket =>
    apply stay
    rw [perform]
    split
    · exact r.paths_keep_subset ticket _
    · exact List.Subset.refl _
  | fail ticket =>
    apply stay
    rw [perform, fail]
    split
    · rw [paths_setStage]
      exact List.Subset.refl _
    · exact List.Subset.refl _
  | giveUp ticket =>
    apply stay
    rw [perform, giveUp]
    split
    · exact List.Subset.refl _
    · exact r.paths_leave_subset _
  | reset ticket key =>
    apply stay
    have same : (r.reset ticket key).1.paths = r.paths := by
      rw [reset_eq]
      exact congrArg (List.map Visit.path) (forgetLockOf_visits _ key)
    rw [perform, same]
    exact List.Subset.refl _
  | clear ticket => exact stay (List.Subset.refl _)
  | closed ticket => exact stay (List.Subset.refl _)

/-! ### The lock of a build -/

/-- At most one visit of a line holds the lock or has been woken. -/
theorem Sound.eq_of_active (h : Sound r) {u : Visit} (hu : u ∈ r.visits) (hv : v ∈ r.visits)
    (same : u.lock = v.lock) (first : u.stage.isPassive = false)
    (second : v.stage.isPassive = false) : u = v := by
  obtain ⟨before, after, split, -⟩ := h.exists_line_split hv
  have line := h.lines v.lock
  rw [split] at line
  have mem : u ∈ r.line v.lock := mem_line.mpr ⟨hu, same⟩
  rw [split] at mem
  rcases List.mem_append.mp mem with early | late
  · have passive := line.others second u (List.mem_append_left _ early)
    rw [first] at passive
    cases passive
  · rcases List.mem_cons.mp late with here | late
    · exact here
    · have passive := line.others second u (List.mem_append_right _ late)
      rw [first] at passive
      cases passive

theorem lockFor_of_registered (registered : Assoc.get? r.locks path = some lock) :
    r.lockFor path = (r, lock) := by
  rw [lockFor, registered]

/-- A newcomer has to wait while the path is built under its lock. -/
theorem KeepsLock.busy (keeps : r.KeepsLock path) (hv : v ∈ r.builds path) :
    (r.lockFor path).1.isFree (r.lockFor path).2 = false := by
  obtain ⟨mem, here, build⟩ := mem_builds.mp hv
  rw [lockFor_of_registered (keeps v mem here (Stage.mayBuild_of_isBuild build))]
  apply Bool.eq_false_iff.mpr
  intro free
  rw [withdrawn_of_isFree free v (mem_line.mpr ⟨mem, rfl⟩)] at build
  cases build

/-- Nobody has been woken while the path is built under its lock. -/
theorem KeepsLock.not_woken (keeps : r.KeepsLock path) (h : Sound r) {u : Visit}
    (hu : u ∈ r.builds path) (hv : v ∈ r.visits) (here : v.path = path) : v.stage ≠ .woken := by
  intro woken
  obtain ⟨mem, there, build⟩ := mem_builds.mp hu
  have registered := keeps u mem there (Stage.mayBuild_of_isBuild build)
  rw [keeps v hv here (by rw [woken]; rfl), Option.some.injEq] at registered
  have same := h.eq_of_active mem hv registered.symm (Stage.not_isPassive_of_isBuild build)
    (by rw [woken]; rfl)
  rw [same, woken] at build
  cases build

/-- A build in progress keeps its lock registered. -/
theorem KeepsLock.perform_of_build (keeps : r.KeepsLock path) (h : Sound r)
    (enabled : r.Enabled event) (noClear : event.isClear = false)
    (hv : v ∈ (r.perform event).builds path) : (r.perform event).KeepsLock path := by
  rcases keeps.perform h enabled noClear with kept | ⟨lock, lost⟩
  · exact kept
  · obtain ⟨mem, here, build⟩ := mem_builds.mp hv
    have one := lost.one v mem here (Stage.mayBuild_of_isBuild build)
    have free := lost.free
    rw [held_eq_any_line, List.any_eq_false] at free
    apply absurd _ (free v (mem_line.mpr ⟨mem, one⟩))
    cases stage : v.stage with
    | building => rfl
    | _ => rw [stage] at build; cases build

/-! ### From the first visit to the console -/

/-- How far a path is, whether it has been visited, and what has been noticed of it. -/
inductive Progress (r : Registry) (path : String) : Bool → List Note → Prop where
  | untouched : path ∉ r.paths → r.find? path = none → Progress r path false []
  | building {v : Visit} : r.find? path = none → r.KeepsLock path → r.builds path = [v] →
      Progress r path true (.called :: (v.stage.started?.map .made).toList)
  | cached {console : ConsoleId} {later : List Note} : r.find? path = some console →
      r.builds path = [] → (∀ note ∈ later, note = .given console) →
      Progress r path true (.called :: .made console :: later)

theorem builds_eq_nil_of_paths (untouched : path ∉ r.paths) : r.builds path = [] := by
  apply List.filter_eq_nil_iff.mpr
  intro v hv
  have other : v.path ≠ path := by
    rintro rfl
    exact untouched (List.mem_map_of_mem hv)
  simp [other]

theorem Event.isClear_of_calm (calm : event.disturbs path = false) : event.isClear = false := by
  cases event <;> first | rfl | cases calm

/-- Before the first visit nothing happens to a path, and the first visit builds. -/
theorem Progress.first (h : Sound r) (enabled : r.Enabled event)
    (calm : event.disturbs path = false) (retained : r.Retains path [event])
    (untouched : path ∉ r.paths) (absent : r.find? path = none) :
    Progress (r.perform event) path (event.visits path) (r.note path event).toList := by
  have idle := builds_eq_nil_of_paths untouched
  have passage := h.passage enabled calm
  have kept : (r.perform event).find? path = none := by
    rw [h.find?_perform enabled calm retained.1 (by rw [idle]; exact List.forall_mem_nil _)]
    exact absent
  have alone : ∀ v ∈ r.visits, v.path ≠ path := by
    rintro v hv rfl
    exact untouched (List.mem_map_of_mem hv)
  generalize r.note path event = note, same : (r.perform event).builds path = after at passage
  cases passage with
  | aside elsewhere =>
    rw [elsewhere]
    apply Progress.untouched _ kept
    intro mem
    rcases r.paths_perform_subset event path mem with old | new
    · exact untouched old
    · rw [elsewhere] at new
      cases new
  | found present =>
    rw [absent] at present
    cases present
  | queued _ busy =>
    -- Nobody has come to the path, so that its lock is free.
    have registered := Assoc.mem_of_get?_eq_some (get?_lockFor r path)
    rw [isFree_of_alone (h.lockFor path) registered (lockFor_visits r path ▸ alone)] at busy
    cases busy
  | @called ticket _ free =>
    have keeps : r.KeepsLock path := fun v hv here ↦ absurd here (alone v hv)
    have visited : (Event.arrive ticket path).visits path = true := by simp [Event.visits]
    rw [visited]
    rw [idle, List.nil_append] at same
    exact .building kept (keeps.arrive ticket path) same
  | resumed hv here => exact absurd here (alone _ hv)
  | made hv => rw [idle] at hv; cases hv
  | kept hv => rw [idle] at hv; cases hv

/-- While a path is built, visits to it wait. -/
theorem Progress.build (h : Sound r) (enabled : r.Enabled event)
    (calm : event.disturbs path = false) (retained : r.Retains path [event])
    (absent : r.find? path = none) (keeps : r.KeepsLock path) (one : r.builds path = [v]) :
    Progress (r.perform event) path true
      (.called :: (v.stage.started?.map .made).toList ++ (r.note path event).toList) := by
  have build : v ∈ r.builds path := by
    rw [one]
    exact List.mem_singleton_self v
  have passage := h.passage enabled calm
  have lock {u : Visit} (still : (r.perform event).builds path = [u]) :
      (r.perform event).KeepsLock path := by
    apply keeps.perform_of_build h enabled (Event.isClear_of_calm calm) (v := u)
    rw [still]
    exact List.mem_singleton_self u
  have kept (other : event ≠ .keep v.ticket) : (r.perform event).find? path = none := by
    rw [h.find?_perform enabled calm retained.1]
    · exact absent
    · intro u hu
      rw [one, List.mem_singleton] at hu
      rwa [hu]
  generalize noted : r.note path event = note, same : (r.perform event).builds path = after at passage
  cases passage with
  | aside =>
    -- The success of the build would be noticed.
    have other : event ≠ .keep v.ticket := by
      rintro rfl
      obtain ⟨u, hu, namesake, -, starts⟩ := h.exists_of_stage? enabled
      obtain ⟨mem, rfl, -⟩ := mem_builds.mp build
      obtain rfl := List.inj_on_of_nodup_map h.tickets hu mem namesake
      obtain ⟨console, stage⟩ := Stage.eq_of_starts starts
      rw [h.note_keep mem stage] at noted
      cases noted
    rw [one] at same
    rw [Option.toList_none, List.append_nil]
    exact .building (kept other) (lock same) same
  | found present =>
    rw [absent] at present
    cases present
  | queued =>
    rw [one] at same
    rw [Option.toList_none, List.append_nil]
    exact .building (kept Event.noConfusion) (lock same) same
  | called _ free =>
    rw [keeps.busy build] at free
    cases free
  | resumed hv here woken => exact absurd woken (keeps.not_woken h build hv here)
  | @made u console hu stage =>
    rw [one, List.mem_singleton] at hu
    subst hu
    rw [one, List.map_cons, if_pos rfl] at same
    rw [stage]
    exact .building (kept Event.noConfusion) (lock same) same
  | @kept u console hu stage =>
    rw [one, List.mem_singleton] at hu
    subst hu
    obtain ⟨mem, here, -⟩ := mem_builds.mp build
    have found : (r.perform (.keep u.ticket)).find? path = some console := by
      rw [h.find?_keep mem stage, here]
      exact h.find?_insert_self path console
    have empty : (r.perform (.keep u.ticket)).builds path = [] := by
      rw [same, one]
      simp
    rw [stage]
    exact .cached found empty (List.forall_mem_singleton.mpr rfl)

/-- While a path has its console, visits to it find that one. -/
theorem Progress.find (h : Sound r) (enabled : r.Enabled event)
    (calm : event.disturbs path = false) (retained : r.Retains path [event])
    {later : List Note} (found : r.find? path = some console) (idle : r.builds path = [])
    (same : ∀ note ∈ later, note = .given console) :
    Progress (r.perform event) path true
      (.called :: .made console :: later ++ (r.note path event).toList) := by
  have passage := h.passage enabled calm
  have kept : (r.perform event).find? path = some console := by
    rw [h.find?_perform enabled calm retained.1 (by rw [idle]; exact List.forall_mem_nil _)]
    exact found
  generalize r.note path event = note, still : (r.perform event).builds path = after at passage
  cases passage with
  | aside =>
    rw [Option.toList_none, List.append_nil]
    exact .cached kept (still.trans idle) same
  | found present =>
    rw [found, Option.some.injEq] at present
    subst present
    exact .cached kept (still.trans idle)
      (List.forall_mem_append.mpr ⟨same, List.forall_mem_singleton.mpr rfl⟩)
  | queued absent => rw [found] at absent; cases absent
  | called absent => rw [found] at absent; cases absent
  | resumed _ _ _ absent => rw [found] at absent; cases absent
  | made hv => rw [idle] at hv; cases hv
  | kept hv => rw [idle] at hv; cases hv

theorem Progress.perform {visited : Bool} {noticed : List Note}
    (progress : Progress r path visited noticed) (h : Sound r) (enabled : r.Enabled event)
    (calm : event.disturbs path = false) (retained : r.Retains path [event]) :
    Progress (r.perform event) path (visited || event.visits path)
      (noticed ++ (r.note path event).toList) := by
  cases progress with
  | untouched untouched absent =>
    rw [Bool.false_or, List.nil_append]
    exact .first h enabled calm retained untouched absent
  | building absent keeps one =>
    rw [Bool.true_or]
    exact .build h enabled calm retained absent keeps one
  | cached found idle same =>
    rw [Bool.true_or]
    exact .find h enabled calm retained found idle same

theorem Progress.run {visited : Bool} {noticed : List Note}
    (progress : Progress r path visited noticed) (h : Sound r) (run : Run r events s)
    (calm : ∀ event ∈ events, event.disturbs path = false) (retained : r.Retains path events) :
    Progress s path (visited || events.any (·.visits path)) (noticed ++ r.log path events) := by
  induction run generalizing visited noticed with
  | done r =>
    rw [List.any_nil, Bool.or_false, log, List.append_nil]
    exact progress
  | step enabled run ih =>
    obtain ⟨here, rest⟩ := List.forall_mem_cons.mp calm
    have next := progress.perform h enabled here ⟨retained.1, trivial⟩
    rw [List.any_cons, ← Bool.or_assoc, log, ← List.append_assoc]
    exact ih next (h.perform enabled) rest retained.2

/-- What has been noticed of a path names one console, once the factory has been called. -/
theorem Progress.agree {visited : Bool} {noticed : List Note}
    (progress : Progress r path visited noticed) :
    noticed.count .called = (if visited then 1 else 0) ∧
      ∀ console, .given console ∈ noticed → noticed.filterMap Note.made? = [console] := by
  cases progress with
  | untouched => exact ⟨rfl, fun _ mem ↦ by cases mem⟩
  | @building v =>
    cases v.stage.started? with
    | none => exact ⟨rfl, fun _ mem ↦ by simp at mem⟩
    | some console => exact ⟨rfl, fun _ mem ↦ by simp at mem⟩
  | @cached console later _ _ same =>
    constructor
    · have uncalled : later.count .called = 0 := by
        apply List.count_eq_zero.mpr
        intro mem
        cases same _ mem
      rw [List.count_cons_self, List.count_cons_of_ne (by simp), uncalled]
      rfl
    · intro other mem
      have unmade : later.filterMap Note.made? = [] := by
        apply List.filterMap_eq_nil_iff.mpr
        intro note mem
        rw [same note mem]
        rfl
      have one : Note.given other = .given console := by
        apply same
        simpa using mem
      cases one
      show console :: later.filterMap Note.made? = [console]
      rw [unmade]

/-- **Clients of one path agree.** In a run in which no build fails and the console of a path is never
taken out, the factory is called for the path exactly once if it is visited at all, and all visits to it
that end with a console have the one that the factory has made. -/
theorem clients_of_path_agree {bound : Int} {start : Registry} (path : String)
    (made : make bound = .ok start) (run : Run start events r)
    (calm : ∀ event ∈ events, event.disturbs path = false)
    (retained : start.Retains path events) :
    (start.log path events).count .called = (if events.any (·.visits path) then 1 else 0) ∧
      ∀ console, .given console ∈ start.log path events →
        (start.log path events).filterMap Note.made? = [console] := by
  have empty := calm_make made
  have untouched : Progress start path false [] := by
    apply Progress.untouched
    · rw [paths, empty.2.1]
      exact List.not_mem_nil
    · rw [find?, empty.2.2]
      rfl
  exact (untouched.run (sound_make made) run calm retained).agree

/-- One visit waits for the console of a path, another one finds it, and the console of the other path has
to go. -/
theorem waiting_client_agrees :
    ∃ (start r : Registry) (events : List Event), make 1 = .ok start ∧ Run start events r ∧
      (∀ event ∈ events, event.disturbs "/a" = false) ∧ start.Retains "/a" events ∧
      Note.given 7 ∈ start.log "/a" events ∧ (start.log "/a" events).count .called = 1 ∧
      (start.log "/a" events).filterMap Note.made? = [7] := by
  have run : Run ⟨1, by decide, [], [], 0, [], []⟩
      [.arrive 0 "/b", .made 0 3, .arrive 1 "/a", .keep 0, .arrive 2 "/a", .made 1 7, .keep 1,
        .closed 1, .arrive 3 "/a", .turn 2] _ :=
    .step (by decide) (.step (by decide) (.step (by decide) (.step (by decide) (.step (by decide)
      (.step (by decide) (.step (by decide) (.step (by decide) (.step (by decide)
        (.step (by decide) (.done _))))))))))
  have made : make 1 = .ok ⟨1, by decide, [], [], 0, [], []⟩ := rfl
  have agree := clients_of_path_agree "/a" made run (by decide) (by decide)
  exact ⟨_, _, _, made, run, by decide, by decide, by decide, agree.1, agree.2 7 (by decide)⟩

end VerbForms.Registry
