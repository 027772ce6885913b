import VerbForms.Console.Basic
import VerbForms.Proofs.Registry.Handover

/-!
# Fleets of consoles

A registry together with the consoles that its factory has made. A console that has to go is unmounted
when its closing begins, and its gateway is closed when the closing ends. In every run the open consoles
are exactly those in custody, so that no console is lost and none is cached after its end.
-/

namespace VerbForms

/-- The gateway of the console has not been closed. -/
def Console.isOpen (console : Console) : Bool := !console.gateway.closed

/-- No panel of the console has been unmounted. -/
def Console.isMounted (console : Console) : Bool := console.panels.all (·.phase != .unmounted)

namespace Registry

/-- A registry and the consoles that its factory has made, in the order of making. -/
structure Fleet where
  registry : Registry
  consoles : List Console

/-- What happens to a fleet at one moment. -/
inductive Happening where
  /-- An event of the registry other than the making of a console. -/
  | event (event : Event)
  /-- The factory has made a console for a visit. -/
  | made (ticket : Ticket) (console : Console)
  /-- A console changes by its own work. -/
  | work (id : ConsoleId) (console : Console)

/-- The consoles whose closing has begun. An operation closes its consoles one after the other. -/
def underClosing (r : Registry) : List ConsoleId :=
  r.visits.filterMap (·.stage.discarded?) ++ r.closings.filterMap (·.left.head?)

namespace Fleet

/-- Whether something can happen. The factory makes open consoles only, and no console closes, opens or
unmounts itself. -/
def Enabled (fleet : Fleet) : Happening → Prop
  | .event event => fleet.registry.Enabled event ∧ event.received = []
  | .made ticket console =>
    fleet.registry.Enabled (.made ticket fleet.consoles.length) ∧
      console.isOpen = true ∧ console.isMounted = true
  | .work id console => ∃ current, fleet.consoles[id]? = some current ∧
      console.isOpen = current.isOpen ∧ console.isMounted = current.isMounted

/-- The consoles after some have been closed and the closing of some has begun. -/
def tend (consoles : List Console) (closed begun : List ConsoleId) : List Console :=
  consoles.mapIdx fun id console ↦
    if id ∈ closed then console.close else if id ∈ begun then console.unmount else console

/-- The fleet after something has happened. -/
def perform (fleet : Fleet) : Happening → Fleet
  | .event event =>
    let registry := fleet.registry.perform event
    ⟨registry, tend fleet.consoles (fleet.registry.released event) registry.underClosing⟩
  | .made ticket console =>
    ⟨fleet.registry.perform (.made ticket fleet.consoles.length), fleet.consoles ++ [console]⟩
  | .work id console => { fleet with consoles := fleet.consoles.set id console }

/-- The fleet after some happenings. -/
def after (fleet : Fleet) (happenings : List Happening) : Fleet := happenings.foldl perform fleet

/-- The happenings lead from the first fleet to the second. -/
inductive Run : Fleet → List Happening → Fleet → Prop where
  | done (fleet : Fleet) : Run fleet [] fleet
  | step {fleet last : Fleet} {happening : Happening} {more : List Happening} :
      fleet.Enabled happening → Run (fleet.perform happening) more last →
      Run fleet (happening :: more) last

variable {fleet last : Fleet} {bound : Nat}

/-- What every happening preserves, every run preserves. -/
theorem Run.preserves {P : Fleet → Prop}
    (kept : ∀ fleet happening, P fleet → fleet.Enabled happening → P (fleet.perform happening))
    {happenings : List Happening} (run : Run fleet happenings last) (h : P fleet) : P last := by
  induction run with
  | done => exact h
  | step enabled _ ih => exact ih (kept _ _ h enabled)

theorem Run.append {happenings more : List Happening} {middle : Fleet}
    (run : Run fleet happenings middle) (rest : Run middle more last) :
    Run fleet (happenings ++ more) last := by
  induction run with
  | done => exact rest
  | step enabled _ ih => exact .step enabled (ih rest)

theorem Run.after_eq {happenings : List Happening} (run : Run fleet happenings last) :
    fleet.after happenings = last := by
  induction run with
  | done => rfl
  | step _ _ ih => exact ih

/-! ### Consoles -/

theorem isOpen_close (console : Console) : console.close.isOpen = false := rfl

theorem isOpen_unmount (console : Console) : console.unmount.isOpen = console.isOpen := rfl

/-- Tending closes the consoles that it has to close and leaves the others open or closed. -/
theorem isOpen_tend {consoles : List Console} {closed begun : List ConsoleId} {id : ConsoleId}
    {console : Console} (after : (tend consoles closed begun)[id]? = some console) :
    ∃ before, consoles[id]? = some before ∧
      (console.isOpen = true ↔ before.isOpen = true ∧ id ∉ closed) ∧
      (id ∉ closed → id ∉ begun → console = before) := by
  rw [tend, List.getElem?_mapIdx, Option.map_eq_some_iff] at after
  obtain ⟨before, found, rfl⟩ := after
  refine ⟨before, found, ?_, ?_⟩
  · by_cases hc : id ∈ closed
    · simp [hc, isOpen_close]
    · by_cases hb : id ∈ begun <;> simp [hc, hb, isOpen_unmount]
  · intro hc hb
    rw [if_neg hc, if_neg hb]

theorem underClosing_subset (r : Registry) : r.underClosing ⊆ r.toClose := by
  intro id begun
  rw [underClosing, List.mem_append] at begun
  rw [toClose, List.mem_append]
  refine begun.imp_right fun first ↦ ?_
  obtain ⟨c, hc, head⟩ := List.mem_filterMap.mp first
  exact List.mem_flatMap.mpr ⟨c, hc, List.mem_of_head? head⟩

/-! ### Accounts -/

/-- Every console is accounted for: the open ones are those in custody, and of these only the ones that
have to be closed may have been unmounted. -/
structure Accounted (bound : Nat) (fleet : Fleet) : Prop where
  sound : Sound fleet.registry
  ticketed : Ticketed fleet.registry
  room : Roomy bound fleet.registry
  distinct : fleet.registry.custody.Nodup
  known : ∀ id ∈ fleet.registry.custody, id < fleet.consoles.length
  isOpen_iff : ∀ id console, fleet.consoles[id]? = some console →
    (console.isOpen = true ↔ id ∈ fleet.registry.custody)
  mounted : ∀ id console, fleet.consoles[id]? = some console →
    id ∈ fleet.registry.custody → id ∉ fleet.registry.toClose → console.isMounted = true

/-- An event of the registry keeps the accounts. -/
theorem Accounted.event (h : Accounted bound fleet) {event : Event}
    (enabled : fleet.registry.Enabled event) (nothing : event.received = []) :
    Accounted bound (fleet.perform (.event event)) := by
  have moved := h.sound.custody_perform h.ticketed h.distinct enabled
  rw [nothing, List.nil_append] at moved
  have distinct := moved.nodup_iff.mpr h.distinct
  have apart : ∀ id ∈ fleet.registry.released event, id ∉ (fleet.registry.perform event).custody :=
    fun id released ↦ List.disjoint_of_nodup_append distinct released
  have split (id : ConsoleId) : id ∈ fleet.registry.custody ↔
      id ∈ fleet.registry.released event ∨ id ∈ (fleet.registry.perform event).custody := by
    rw [← moved.mem_iff, List.mem_append]
  refine ⟨h.sound.perform enabled, h.ticketed.perform h.sound enabled, h.room.perform h.sound enabled,
    List.Nodup.of_append_right distinct, ?_, ?_, ?_⟩
  · intro id kept
    rw [perform, tend, List.length_mapIdx]
    exact h.known id ((split id).mpr (.inr kept))
  · intro id console after
    obtain ⟨before, found, still, -⟩ := isOpen_tend after
    rw [still, h.isOpen_iff id before found, split]
    constructor
    · rintro ⟨released | kept, open_⟩
      · exact absurd released open_
      · exact kept
    · intro kept
      exact ⟨.inr kept, fun released ↦ apart id released kept⟩
  · intro id console after kept free
    obtain ⟨before, found, -, same⟩ := isOpen_tend after
    have unreleased : id ∉ fleet.registry.released event := fun released ↦ apart id released kept
    rw [same unreleased fun begun ↦ free (underClosing_subset _ begun)]
    refine h.mounted id before found ((split id).mpr (.inr kept)) fun due ↦ ?_
    exact (h.sound.mem_toClose_perform h.ticketed enabled due).elim free unreleased

/-- A console that the factory has made is taken into the accounts. -/
theorem Accounted.made (h : Accounted bound fleet) {ticket : Ticket} {console : Console}
    (enabled : fleet.registry.Enabled (.made ticket fleet.consoles.length))
    (isOpen : console.isOpen = true) (isMounted : console.isMounted = true) :
    Accounted bound (fleet.perform (.made ticket console)) := by
  have moved := h.sound.custody_perform h.ticketed h.distinct enabled
  have unknown : fleet.consoles.length ∉ fleet.registry.custody := fun known ↦
    Nat.lt_irrefl _ (h.known _ known)
  have split (id : ConsoleId) :
      id ∈ (fleet.registry.perform (.made ticket fleet.consoles.length)).custody ↔
        id = fleet.consoles.length ∨ id ∈ fleet.registry.custody := by
    have members := moved.mem_iff (a := id)
    simpa [released, Event.received] using members
  -- A console is the new one or one that was there before.
  have origin {id : ConsoleId} {found : Console} (after : (fleet.consoles ++ [console])[id]? = some found) :
      id = fleet.consoles.length ∧ found = console ∨
        id ≠ fleet.consoles.length ∧ fleet.consoles[id]? = some found := by
    rcases Nat.lt_trichotomy id fleet.consoles.length with lt | eq | gt
    · rw [List.getElem?_append_left lt] at after
      exact .inr ⟨Nat.ne_of_lt lt, after⟩
    · rw [eq, List.getElem?_concat_length] at after
      exact .inl ⟨eq, (Option.some.inj after).symm⟩
    · rw [List.getElem?_eq_none (by simp; omega)] at after
      cases after
  refine ⟨h.sound.perform enabled, h.ticketed.perform h.sound enabled, h.room.perform h.sound enabled,
    ?_, ?_, ?_, ?_⟩
  · have distinct := List.nodup_cons.mpr ⟨unknown, h.distinct⟩
    exact List.Nodup.of_append_right (moved.nodup_iff.mpr distinct)
  · intro id kept
    rw [perform, List.length_append, List.length_singleton]
    rcases (split id).mp kept with eq | old
    · exact eq ▸ Nat.lt_succ_self _
    · exact Nat.lt_succ_of_lt (h.known id old)
  · intro id found after
    rw [perform, split]
    rcases origin after with ⟨eq, rfl⟩ | ⟨ne, old⟩
    · simp [eq, isOpen]
    · rw [h.isOpen_iff id found old]
      simp [ne]
  · intro id found after kept free
    rcases origin after with ⟨-, rfl⟩ | ⟨ne, old⟩
    · exact isMounted
    · refine h.mounted id found old (((split id).mp kept).resolve_left ne) fun due ↦ ?_
      rcases h.sound.mem_toClose_perform h.ticketed enabled due with still | released
      · exact free still
      · exact absurd released List.not_mem_nil

/-- The work of a console does not touch the accounts. -/
theorem Accounted.work (h : Accounted bound fleet) {id : ConsoleId} {console current : Console}
    (found : fleet.consoles[id]? = some current) (isOpen : console.isOpen = current.isOpen)
    (isMounted : console.isMounted = current.isMounted) :
    Accounted bound (fleet.perform (.work id console)) := by
  have origin {other : ConsoleId} {after : Console}
      (ha : (fleet.consoles.set id console)[other]? = some after) :
      ∃ before, fleet.consoles[other]? = some before ∧ after.isOpen = before.isOpen ∧
        after.isMounted = before.isMounted := by
    rw [List.getElem?_set] at ha
    split at ha
    · next same =>
      split at ha
      · cases ha
        exact ⟨current, same ▸ found, isOpen, isMounted⟩
      · cases ha
    · exact ⟨after, ha, rfl, rfl⟩
  refine ⟨h.sound, h.ticketed, h.room, h.distinct, ?_, ?_, ?_⟩
  · intro other kept
    rw [perform, List.length_set]
    exact h.known other kept
  · intro other after ha
    obtain ⟨before, old, same, -⟩ := origin ha
    rw [same]
    exact h.isOpen_iff other before old
  · intro other after ha kept free
    obtain ⟨before, old, -, same⟩ := origin ha
    rw [same]
    exact h.mounted other before old kept free

theorem Accounted.perform (h : Accounted bound fleet) {happening : Happening}
    (enabled : fleet.Enabled happening) : Accounted bound (fleet.perform happening) := by
  cases happening with
  | event event => exact h.event enabled.1 enabled.2
  | made ticket console => exact h.made enabled.1 enabled.2.1 enabled.2.2
  | work id console =>
    obtain ⟨current, found, isOpen, isMounted⟩ := enabled
    exact h.work found isOpen isMounted

/-- Every run of a new registry keeps the accounts. -/
theorem Run.accounted {bound : Int} {start : Registry} {happenings : List Happening}
    (made : make bound = .ok start) (run : Run ⟨start, []⟩ happenings fleet) :
    Accounted bound.toNat fleet := by
  refine run.preserves (fun _ _ h enabled ↦ h.perform enabled) ?_
  have sound := sound_make made
  rw [make] at made
  split at made
  · cases made
    exact ⟨sound, ⟨List.nodup_nil, by simp⟩, ⟨rfl, Nat.zero_le _⟩, List.nodup_nil, by simp [custody,
      cachedConsoles, starting, toClose], by simp, by simp⟩
  · cases made

/-- A console in custody is cached, or a visit starts it, or an operation still has to close it. -/
theorem mem_custody {r : Registry} {id : ConsoleId} : id ∈ r.custody ↔
    id ∈ r.cachedConsoles ∨ (∃ v ∈ r.visits, v.stage = .building (some id)) ∨ id ∈ r.toClose := by
  have started (stage : Stage) : stage.started? = some id ↔ stage = .building (some id) := by
    cases stage <;> simp [Stage.started?]
  rw [custody, List.mem_append, List.mem_append, mem_starting, or_assoc]
  simp only [started]

/-- A cached console is not to be closed. -/
theorem Accounted.not_mem_toClose (h : Accounted bound fleet) {id : ConsoleId}
    (cached : id ∈ fleet.registry.cachedConsoles) : id ∉ fleet.registry.toClose := by
  have distinct := h.distinct
  rw [custody, List.append_assoc] at distinct
  exact fun due ↦ List.disjoint_of_nodup_append distinct cached (List.mem_append_right _ due)

/-- A cached console has been made, and it is open and mounted. -/
theorem Accounted.alive (h : Accounted bound fleet) {id : ConsoleId}
    (cached : id ∈ fleet.registry.cachedConsoles) :
    ∃ console, fleet.consoles[id]? = some console ∧
      console.isOpen = true ∧ console.isMounted = true := by
  have kept : id ∈ fleet.registry.custody := mem_custody.mpr (.inl cached)
  have found := List.getElem?_eq_getElem (h.known id kept)
  exact ⟨_, found, (h.isOpen_iff id _ found).mpr kept,
    h.mounted id _ found kept (h.not_mem_toClose cached)⟩

/-- Every run keeps the accounts. -/
theorem Run.keepsAccounts {happenings : List Happening} (run : Run fleet happenings last)
    (h : Accounted bound fleet) : Accounted bound last :=
  run.preserves (fun _ _ h enabled ↦ h.perform enabled) h

/-- **No console is lost, and none is cached after its end.** In every run of a registry the cache keeps
within the bound, and each cached console is open, mounted and not to be closed; every open console is
cached, or a visit starts it, or an unfinished operation still has to close it. Where no operation is
unfinished the open consoles are the cached ones. -/
theorem open_consoles_accounted_for {bound : Int} {start : Registry} {happenings : List Happening}
    (made : make bound = .ok start) (run : Run ⟨start, []⟩ happenings fleet) :
    fleet.registry.size ≤ bound ∧
      (∀ id ∈ fleet.registry.cachedConsoles, id ∉ fleet.registry.toClose ∧
        ∃ console, fleet.consoles[id]? = some console ∧
          console.isOpen = true ∧ console.isMounted = true) ∧
      (∀ id console, fleet.consoles[id]? = some console → console.isOpen = true →
        id ∈ fleet.registry.cachedConsoles ∨
          (∃ v ∈ fleet.registry.visits, v.stage = .building (some id)) ∨
          id ∈ fleet.registry.toClose) ∧
      (fleet.registry.visits = [] → fleet.registry.closings = [] →
        ∀ id console, fleet.consoles[id]? = some console →
          (console.isOpen = true ↔ id ∈ fleet.registry.cachedConsoles)) := by
  have h := run.accounted made
  refine ⟨?_, ?_, ?_, ?_⟩
  · have length_le := h.room.length_le
    have positive : 0 < bound := by
      rw [make] at made
      split at made
      · omega
      · cases made
    rw [size]
    omega
  · intro id cached
    have kept : id ∈ fleet.registry.custody := mem_custody.mpr (.inl cached)
    have free : id ∉ fleet.registry.toClose := by
      have distinct := h.distinct
      rw [custody, List.append_assoc] at distinct
      exact fun due ↦ List.disjoint_of_nodup_append distinct cached (List.mem_append_right _ due)
    have found := List.getElem?_eq_getElem (h.known id kept)
    exact ⟨free, _, found, (h.isOpen_iff id _ found).mpr kept, h.mounted id _ found kept free⟩
  · intro id console found isOpen
    exact mem_custody.mp ((h.isOpen_iff id console found).mp isOpen)
  · intro noVisits noClosings id console found
    rw [h.isOpen_iff id console found, mem_custody, mem_toClose, noVisits, noClosings]
    simp

/-- A registry with room for one console builds a second one: the first is still open and mounted no
more, and the visit that has put it out has to close it. -/
theorem evicted_console_accounted_for :
    ∃ (start : Registry) (fleet : Fleet), make 1 = .ok start ∧
      Run ⟨start, []⟩
        [.event (.arrive 0 "/a"),
          .made 0 (.ofPanels "/a" true [.make "POST" "/a" true] default),
          .event (.keep 0), .event (.arrive 1 "/b"),
          .made 1 (.ofPanels "/b" true [.make "POST" "/b" true] default), .event (.keep 1)] fleet ∧
      (fleet.registry.size : Int) ≤ 1 ∧ fleet.registry.cachedConsoles = [1] ∧
      (∃ console, fleet.consoles[1]? = some console ∧ console.isOpen = true ∧
        console.isMounted = true) ∧
      (∃ console, fleet.consoles[0]? = some console ∧ console.isOpen = true ∧
        console.isMounted = false) ∧ 0 ∈ fleet.registry.toClose := by
  have made : make 1 = .ok ⟨1, by decide, [], [], 0, [], []⟩ := rfl
  have run : Run ⟨⟨1, by decide, [], [], 0, [], []⟩, []⟩
      [.event (.arrive 0 "/a"),
        .made 0 (.ofPanels "/a" true [.make "POST" "/a" true] default),
        .event (.keep 0), .event (.arrive 1 "/b"),
        .made 1 (.ofPanels "/b" true [.make "POST" "/b" true] default), .event (.keep 1)] _ :=
    .step ⟨by decide, rfl⟩ (.step ⟨by decide, rfl, rfl⟩ (.step ⟨by decide, rfl⟩
      (.step ⟨by decide, rfl⟩ (.step ⟨by decide, rfl, rfl⟩ (.step ⟨by decide, rfl⟩ (.done _))))))
  obtain ⟨within, alive, accounted, -⟩ := open_consoles_accounted_for made run
  refine ⟨_, _, made, run, within, by decide, (alive 1 (by decide)).2, ⟨_, rfl, rfl, rfl⟩, ?_⟩
  exact ((accounted 0 _ rfl rfl).resolve_left (by decide)).resolve_left (by decide)

end Fleet

end Registry

end VerbForms
