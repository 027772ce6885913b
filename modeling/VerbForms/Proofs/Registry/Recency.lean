import VerbForms.Proofs.Registry.Passage

/-!
# Recency of use

A path is used when a visit finds its console and when a build puts one there; looking a console up is no
use. The cache stands in the order of the last uses at all times, so that what has to make room for a new
console was used before everything that stays.
-/

namespace VerbForms.Registry

variable {start r s : Registry} {v : Visit} {ticket : Ticket} {path key other : String}
variable {console : ConsoleId} {event : Event} {events : List Event} {history : List String}
variable {entries : List (String × ConsoleId)}

/-- The path that is used when an event happens. -/
def used? (r : Registry) : Event → Option String
  | .arrive ticket path =>
    match (r.arrive ticket path).2 with
    | .found _ => some path
    | _ => none
  | .turn ticket =>
    match (r.resume ticket).2.1 with
    | .found _ => r.path? ticket
    | _ => none
  | .keep ticket => r.path? ticket
  | _ => none

/-- The paths that are used while events happen, in order. -/
def uses : Registry → List Event → List String
  | _, [] => []
  | r, event :: events => (r.used? event).toList ++ uses (r.perform event) events

/-- When a path was used last, counted in uses; 0 if it has not been used. -/
def lastUse (history : List String) (path : String) : Nat :=
  history.length - history.reverse.idxOf path

/-- All cached paths have been used, and they stand in the order of their last uses. -/
structure InOrderOfUse (history : List String) (entries : List (String × ConsoleId)) : Prop where
  used : ∀ path ∈ Assoc.keys entries, 0 < lastUse history path
  order : (Assoc.keys entries).Pairwise fun path other ↦ lastUse history path < lastUse history other

/-- Whether an event takes the console of a path out for good. -/
def Event.takesOut (path : String) : Event → Bool
  | .reset _ key => key = path
  | .clear _ => true
  | _ => false

/-- An event evicts a path: the path loses its console, though nobody has asked for that. -/
def Evicts (r : Registry) (event : Event) (path : String) : Prop :=
  (r.find? path).isSome = true ∧ (r.perform event).find? path = none ∧ event.takesOut path = false

instance (r : Registry) (event : Event) (path : String) : Decidable (r.Evicts event path) :=
  inferInstanceAs (Decidable (_ ∧ _))

/-! ### Times -/

theorem lastUse_le (history : List String) (path : String) : lastUse history path ≤ history.length :=
  Nat.sub_le _ _

theorem lastUse_concat_self (history : List String) (path : String) :
    lastUse (history ++ [path]) path = history.length + 1 := by
  simp [lastUse]

theorem lastUse_concat_of_ne (ne : path ≠ key) (history : List String) :
    lastUse (history ++ [key]) path = lastUse history path := by
  simp [lastUse, List.idxOf_cons_ne _ ne.symm]

/-! ### Orders -/

theorem InOrderOfUse.sublist (h : InOrderOfUse history entries) {fewer : List (String × ConsoleId)}
    (sub : fewer.Sublist entries) : InOrderOfUse history fewer :=
  ⟨fun path mem ↦ h.used path ((sub.map Prod.fst).subset mem), h.order.sublist (sub.map Prod.fst)⟩

/-- A path that is used goes to the end. -/
theorem InOrderOfUse.touch (h : InOrderOfUse history r.cached) (keys : (Assoc.keys r.cached).Nodup)
    (path : String) (console : ConsoleId) :
    InOrderOfUse (history ++ [path]) (r.touch path console).cached := by
  have left := h.sublist (Assoc.erase_sublist r.cached path)
  have others : ∀ key ∈ Assoc.keys (Assoc.erase r.cached path),
      lastUse (history ++ [path]) key = lastUse history key := by
    rintro key mem
    refine lastUse_concat_of_ne ?_ history
    rintro rfl
    exact (Assoc.get?_eq_none_iff _ _).mp (Assoc.get?_erase_self keys key) mem
  have touched : Assoc.keys (r.touch path console).cached =
      Assoc.keys (Assoc.erase r.cached path) ++ [path] := List.map_append
  constructor
  · rw [touched]
    intro key mem
    rcases List.mem_append.mp mem with old | new
    · exact others key old ▸ left.used key old
    · rw [List.mem_singleton.mp new, lastUse_concat_self]
      exact Nat.succ_pos _
  · rw [touched]
    refine List.pairwise_append.mpr ⟨?_, List.pairwise_singleton _ _, fun key old last new ↦ ?_⟩
    · refine left.order.imp_of_mem fun first second earlier ↦ ?_
      rwa [others _ first, others _ second]
    · rw [List.mem_singleton.mp new, lastUse_concat_self, others key old]
      exact Nat.lt_succ_of_le (lastUse_le history key)

/-- Evictions take entries away at the front. -/
theorem evict_suffix (entries : List (String × ConsoleId)) (cached : r.cached = entries) :
    (r.evict entries).1.cached <:+ entries := by
  induction entries generalizing r with
  | nil => rw [evict, cached]
  | cons entry rest ih =>
    rw [evict]
    split
    · exact (ih (forgetLockOf_cached _ entry.1)).trans (List.suffix_cons entry rest)
    · rw [cached]

/-- Nothing is evicted where there is room. -/
theorem evict_of_room (room : r.cached.length ≤ r.bound) (entries : List (String × ConsoleId)) :
    r.evict entries = (r, []) := by
  cases entries with
  | nil => rfl
  | cons entry rest => rw [evict, if_neg (Nat.not_lt.mpr room)]

/-! ### Uses -/

theorem used?_arrive_of_found (found : r.find? path = some console) (ticket : Ticket) :
    r.used? (.arrive ticket path) = some path := by
  rw [used?, arrive_of_found found]

theorem used?_arrive_of_absent (absent : r.find? path = none) (ticket : Ticket) :
    r.used? (.arrive ticket path) = none := by
  cases free : (r.lockFor path).1.isFree (r.lockFor path).2 with
  | true => rw [used?, arrive_of_free absent free]
  | false => rw [used?, arrive_of_busy absent free]

/-- What an event does to the cache: it takes entries away, or a path is used and gets to the end before
entries are taken away at the front. -/
inductive Recency (r : Registry) : Event → Option String → List (String × ConsoleId) → Prop where
  | unused {event : Event} {after : List (String × ConsoleId)} : after.Sublist r.cached →
      Recency r event none after
  | found {event : Event} {path : String} {console : ConsoleId} : r.find? path = some console →
      Recency r event (some path) (r.touch path console).cached
  | kept {v : Visit} {console : ConsoleId} : v ∈ r.visits → v.stage = .building (some console) →
      Recency r (.keep v.ticket) (some v.path) (r.insert v.path console).1.cached

theorem Sound.recency_turn (h : Sound r) (enabled : (r.stage? ticket).any Stage.takesTurn = true) :
    Recency r (.turn ticket) (r.used? (.turn ticket)) (r.resume ticket).1.cached := by
  have resumes := h.resumes enabled
  rw [used?]
  generalize r.resume ticket = result at resumes ⊢
  cases resumes with
  | @found v console mem woken known =>
    dsimp only
    rw [path?_of_mem h mem, (sameCustody_leave (h.touch v.path console).tickets v).cached]
    exact .found known
  | builds => exact .unused (List.Sublist.refl r.cached)
  | @quits v =>
    rw [(sameCustody_quit h.tickets v).cached]
    exact .unused (List.Sublist.refl r.cached)

theorem Sound.recency (h : Sound r) (enabled : r.Enabled event) :
    Recency r event (r.used? event) (r.perform event).cached := by
  have unchanged (used : r.used? event = none) (same : (r.perform event).cached = r.cached) :
      Recency r event (r.used? event) (r.perform event).cached := by
    rw [used, same]
    exact .unused (List.Sublist.refl r.cached)
  obtain ⟨s, step, same⟩ := h.handover enabled
  cases event with
  | arrive ticket path =>
    cases known : r.find? path with
    | some console =>
      rw [used?_arrive_of_found known, Registry.perform, arrive_of_found known]
      exact .found known
    | none =>
      refine unchanged (used?_arrive_of_absent known ticket) ?_
      cases free : (r.lockFor path).1.isFree (r.lockFor path).2 with
      | true =>
        rw [Registry.perform, arrive_of_free known free]
        exact lockFor_cached r path
      | false =>
        rw [Registry.perform, arrive_of_busy known free]
        exact lockFor_cached r path
  | turn ticket => exact h.recency_turn enabled
  | cancel ticket =>
    cases step
    exact unchanged rfl same.cached
  | made ticket console => exact unchanged rfl rfl
  | keep ticket =>
    cases step with
    | @kept v console hv stage =>
      have used : r.used? (.keep v.ticket) = some v.path := path?_of_mem h hv
      rw [used, same.cached]
      exact .kept hv stage
  | fail ticket =>
    cases step
    exact unchanged rfl same.cached
  | giveUp ticket =>
    cases step
    exact unchanged rfl same.cached
  | reset ticket path =>
    cases step
    rw [same.cached]
    exact .unused (Assoc.erase_sublist r.cached path)
  | clear ticket =>
    cases step
    rw [same.cached]
    exact .unused (List.nil_sublist r.cached)
  | closed ticket => exact unchanged rfl rfl

/-! ### Runs -/

/-- Every event keeps the cache in the order of use. -/
theorem InOrderOfUse.perform (h : InOrderOfUse history r.cached) (sound : Sound r)
    (enabled : r.Enabled event) :
    InOrderOfUse (history ++ (r.used? event).toList) (r.perform event).cached := by
  have recency := sound.recency enabled
  generalize r.used? event = used at recency ⊢
  generalize (r.perform event).cached = after at recency ⊢
  cases recency with
  | unused fewer =>
    rw [Option.toList_none, List.append_nil]
    exact h.sublist fewer
  | @found _ path console => exact h.touch sound.cachedKeys path console
  | @kept v console =>
    exact (h.touch sound.cachedKeys v.path console).sublist (evict_suffix _ rfl).sublist

theorem InOrderOfUse.run (h : InOrderOfUse history r.cached) (sound : Sound r) (run : Run r events s) :
    InOrderOfUse (history ++ r.uses events) s.cached := by
  induction run generalizing history with
  | done => rwa [uses, List.append_nil]
  | step enabled _ ih =>
    rw [uses, ← List.append_assoc]
    exact ih (h.perform sound enabled) (sound.perform enabled)

theorem uses_concat (run : Run start events r) (event : Event) :
    start.uses (events ++ [event]) = start.uses events ++ (r.used? event).toList := by
  induction run with
  | done => rw [List.nil_append, uses, uses, uses, List.append_nil, List.nil_append]
  | step _ _ ih => rw [List.cons_append, uses, uses, ih, List.append_assoc]

theorem inOrderOfUse_make {bound : Int} (made : make bound = .ok r) : InOrderOfUse [] r.cached := by
  rw [(calm_make made).2.2]
  exact ⟨List.forall_mem_nil _, List.Pairwise.nil⟩

/-! ### Evictions -/

/-- The use of a path adds an entry unless the path has one already. -/
theorem length_touch (r : Registry) (path : String) (console : ConsoleId) :
    (r.touch path console).cached.length + (r.find? path).toList.length = r.cached.length + 1 := by
  have touched := (perm_cached_touch r path console).length_eq
  rw [List.length_append, List.length_cons, cachedConsoles, cachedConsoles, List.length_map,
    List.length_map] at touched
  omega

/-- An insertion evicts a path only if the registry is full and has no console at the path that is
inserted. -/
theorem Sound.full_of_insert (h : Sound r) (room : r.size ≤ r.bound) (here : (r.find? path).isSome = true)
    (gone : (r.insert key console).1.find? path = none) :
    r.find? key = none ∧ key ≠ path ∧ r.size = r.bound := by
  have elsewhere : key ≠ path := by
    rintro rfl
    rw [h.find?_insert_self] at gone
    cases gone
  have crowded : r.bound < (r.touch key console).cached.length := by
    by_contra fits
    have kept : (r.insert key console).1 = r.touch key console :=
      congrArg Prod.fst (evict_of_room (r := r.touch key console) (Nat.not_lt.mp fits) _)
    rw [kept, find?_touch h.cachedKeys, if_neg elsewhere] at gone
    rw [gone] at here
    cases here
  have added := length_touch r key console
  rw [size] at room ⊢
  cases known : r.find? key with
  | none =>
    rw [known, Option.toList_none, List.length_nil] at added
    exact ⟨rfl, elsewhere, by omega⟩
  | some _ =>
    rw [known, Option.toList_some, List.length_singleton] at added
    omega

/-- A path is evicted only when a build puts a console at another path and the registry is full. -/
theorem Evicts.inserts (evicts : r.Evicts event path) (h : Sound r) (enabled : r.Enabled event)
    (room : r.size ≤ r.bound) :
    ∃ v ∈ r.visits, event = .keep v.ticket ∧ r.find? v.path = none ∧ v.path ≠ path ∧
      r.size = r.bound := by
  obtain ⟨here, gone, asked⟩ := evicts
  obtain ⟨s, step, same⟩ := h.handover enabled
  have after : s.find? path = none := by rwa [find?, ← same.cached]
  have kept (entries : List (String × ConsoleId)) (stays : Assoc.get? entries path = r.find? path) :
      Assoc.get? entries path ≠ none := by
    rw [stays]
    exact Option.isSome_iff_ne_none.mp here
  have touched {key : String} {console : ConsoleId} :
      (r.touch key console).find? path ≠ none := by
    rw [find?_touch h.cachedKeys]
    split
    · exact Option.some_ne_none console
    · exact Option.isSome_iff_ne_none.mp here
  cases step with
  | found => exact absurd after touched
  | foundLater => exact absurd after touched
  | @kept v console hv => exact ⟨v, hv, rfl, h.full_of_insert room here after⟩
  | @taken ticket key =>
    have elsewhere : key ≠ path := by simpa [Event.takesOut] using asked
    exact absurd after (kept _ (Assoc.get?_erase_of_ne elsewhere r.cached))
  | cleared => cases asked
  | _ => exact absurd after (kept _ rfl)

/-- What is evicted was used before everything that stays. -/
theorem Evicts.earlier (evicts : r.Evicts event path) (h : Sound r) (enabled : r.Enabled event)
    (room : r.size ≤ r.bound) (order : InOrderOfUse history r.cached)
    (stays : ((r.perform event).find? other).isSome = true) :
    lastUse (history ++ (r.used? event).toList) path <
      lastUse (history ++ (r.used? event).toList) other := by
  obtain ⟨v, hv, rfl, -, elsewhere, -⟩ := evicts.inserts h enabled room
  obtain ⟨console, stage⟩ : ∃ console, v.stage = .building (some console) := by
    rw [Enabled, stage?_of_mem h hv] at enabled
    exact Stage.eq_of_starts enabled
  have used : r.used? (.keep v.ticket) = some v.path := path?_of_mem h hv
  rw [used]
  -- With the console at its path, and before anything goes, the cache is in the order of use.
  have touched := order.touch h.cachedKeys v.path console
  obtain ⟨evicted, split⟩ := evict_suffix (r := r.touch v.path console) _ rfl
  have gone : path ∉ Assoc.keys (r.insert v.path console).1.cached := by
    rw [← Assoc.get?_eq_none_iff, ← find?, ← h.find?_keep hv stage]
    exact evicts.2.1
  have first : path ∈ Assoc.keys evicted := by
    have present : path ∈ Assoc.keys (r.touch v.path console).cached := by
      rw [Assoc.mem_keys_iff]
      show ((r.touch v.path console).find? path).isSome = true
      rw [find?_touch h.cachedKeys, if_neg elsewhere]
      exact evicts.1
    rw [← split, Assoc.keys, List.map_append] at present
    exact (List.mem_append.mp present).resolve_right gone
  have last : other ∈ Assoc.keys (r.insert v.path console).1.cached := by
    rw [Assoc.mem_keys_iff, ← find?, ← h.find?_keep hv stage]
    exact stays
  have ordered := touched.order
  rw [← split, Assoc.keys, List.map_append, List.pairwise_append] at ordered
  exact ordered.2.2 path first other last

/-- **Eviction is least recently used.** In every run the cached paths stand in the order of their last
uses. A path is evicted only where a build puts a console at another path and the registry is full, and
whatever stays was used later than it; the console that a build puts at its path stays. -/
theorem least_recently_used_is_evicted {bound : Int} (made : make bound = .ok start)
    (run : Run start events r) :
    InOrderOfUse (start.uses events) r.cached ∧ ∀ event, r.Enabled event →
      (∀ path, r.Evicts event path →
        (∃ v ∈ r.visits, event = .keep v.ticket ∧ r.find? v.path = none ∧ v.path ≠ path ∧
          (r.size : Int) = bound) ∧
        ∀ other, ((r.perform event).find? other).isSome = true →
          lastUse (start.uses (events ++ [event])) path <
            lastUse (start.uses (events ++ [event])) other) ∧
      ∀ v ∈ r.visits, event = .keep v.ticket → ∀ console, v.stage = .building (some console) →
        (r.perform event).find? v.path = some console := by
  have sound := run.sound made
  have roomy := run.roomy made
  have room : r.size ≤ r.bound := roomy.bound_eq ▸ roomy.length_le
  have order : InOrderOfUse (start.uses events) r.cached :=
    (inOrderOfUse_make made).run (sound_make made) run
  refine ⟨order, fun event enabled ↦ ⟨fun path evicts ↦ ⟨?_, fun other stays ↦ ?_⟩, ?_⟩⟩
  · obtain ⟨v, hv, keeps, absent, elsewhere, full⟩ := evicts.inserts sound enabled room
    refine ⟨v, hv, keeps, absent, elsewhere, ?_⟩
    rw [full, roomy.bound_eq, bound_of_make made]
  · rw [uses_concat run]
    exact evicts.earlier sound enabled room order stays
  · rintro v hv rfl console stage
    rw [sound.find?_keep hv stage, sound.find?_insert_self]

/-- A registry with room for two consoles has those of two paths. The first path is visited again, so that
the second one has to make room for the console of a third. -/
theorem second_path_is_evicted :
    ∃ start r : Registry, make 2 = .ok start ∧
      Run start
        [.arrive 0 "/a", .made 0 0, .keep 0, .arrive 1 "/b", .made 1 1, .keep 1, .arrive 2 "/a",
          .arrive 3 "/c", .made 3 2] r ∧
      Assoc.keys r.cached = ["/b", "/a"] ∧ r.Evicts (.keep 3) "/b" ∧
      (∀ other, ((r.perform (.keep 3)).find? other).isSome = true →
        2 < lastUse ["/a", "/b", "/a", "/c"] other) ∧
      (r.perform (.keep 3)).find? "/c" = some 2 := by
  have made : make 2 = .ok ⟨2, by decide, [], [], 0, [], []⟩ := rfl
  have run : Run ⟨2, by decide, [], [], 0, [], []⟩
      [.arrive 0 "/a", .made 0 0, .keep 0, .arrive 1 "/b", .made 1 1, .keep 1, .arrive 2 "/a",
        .arrive 3 "/c", .made 3 2]
      ⟨2, by decide, [("/b", 1), ("/a", 0)], [("/a", 0), ("/b", 1), ("/c", 2)], 3,
        [⟨3, "/c", 2, .building (some 2)⟩], []⟩ :=
    .step (by decide) (.step (by decide) (.step (by decide) (.step (by decide) (.step (by decide)
      (.step (by decide) (.step (by decide) (.step (by decide) (.step (by decide) (.done _)))))))))
  obtain ⟨-, later⟩ := least_recently_used_is_evicted made run
  obtain ⟨evicted, kept⟩ := later (.keep 3) (by decide)
  exact ⟨_, _, made, run, rfl, by decide, (evicted "/b" (by decide)).2,
    kept ⟨3, "/c", 2, .building (some 2)⟩ (by decide) rfl 2 rfl⟩

end VerbForms.Registry
