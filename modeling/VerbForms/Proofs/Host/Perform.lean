import VerbForms.Host.Endpoint
import VerbForms.Proofs.Console.Keys
import VerbForms.Proofs.Panel.Saving

/-!
# What an errand does to the values

An errand on a console that is current leaves it current: only a value that has been set with success, and
that has content, is new in the store, and only under the key of its panel.
-/

namespace VerbForms.Host

/-- The value that an errand with this answer has put on a panel. -/
def Errand.put? (errand : Errand) (served : Served) : Option (String × Json) :=
  match errand with
  | .setValue verb value _ => if (served.reply none).status = 200 then some (Text.upper verb, value) else none
  | _ => none

/-- A value is set with a save trigger, and it can be stored. -/
def Errand.WellFormed : Errand → Prop
  | .setValue _ value trigger => trigger ∈ Store.saveTriggers ∧ value.Storable
  | _ => True

theorem Errand.WellFormed.storable {errand : Errand} (formed : errand.WellFormed) {served : Served}
    {verb : String} {value : Json} (put : errand.put? served = some (verb, value)) : value.Storable := by
  cases errand with
  | setValue named given trigger =>
    rw [Errand.put?] at put
    split at put
    · exact (Prod.mk.inj (Option.some.inj put)).2 ▸ formed.2
    · cases put
  | _ => cases put

/-- The values in a store after one has been put on a panel. -/
def loadAfter (store : Store) (single : Bool) (path : String) (put : Option (String × Json)) (key : String) :
    Json :=
  match put with
  | some (verb, value) =>
    if value.isEmpty = false ∧ key = Console.keyOf single verb path then value else store.load key
  | none => store.load key

variable {verbs : List String} {single : Bool} {console : Console} {store : Store}

/-- A console and a store in which all values can be stored, and whose forms are current. -/
structure Current (verbs : List String) (single : Bool) (store : Store) (console : Console) : Prop where
  shaped : console.Shaped verbs single
  available : store ≠ .database none
  storable : ∀ key, (store.load key).Storable
  panels : ∀ panel ∈ console.panels, panel.IsCurrent store

/-- What an errand with an answer does to the values in a store. -/
structure Answered (verbs : List String) (single : Bool) (path : String) (store next : Store)
    (put : Option (String × Json)) : Prop where
  verb : ∀ verb value, put = some (verb, value) → verb ∈ Console.verbsOf verbs single
  loads : ∀ key, next.load key = loadAfter store single path put key

/-- What an errand does to a console and the store. -/
structure Done (verbs : List String) (single : Bool) (console : Console) (store : Store) (errand : Errand)
    (step : Step) : Prop where
  evolves : console.Evolves Panel.Kept step.console
  available : step.store ≠ .database none
  panels : ∀ panel ∈ step.console.panels, panel.IsCurrent step.store
  performed : match step.performed with
    | .answered served => Answered verbs single console.path store step.store (errand.put? served)
    | .submits _ => (∃ verb, errand = .submit verb) ∧ step.console = console ∧ step.store = store

/-- No value has been put on a panel, and all values are the same. -/
theorem answered_none {path : String} {next : Store} (same : Panel.SameLoads store next) :
    Answered verbs single path store next none :=
  ⟨fun _ _ put ↦ (nomatch put), same⟩

theorem reply_status (served : Served) (name : Option String) :
    (served.reply name).status = (served.reply none).status := by
  cases served <;> rfl

/-- An errand that leaves the store alone, and of the console what is kept. -/
theorem Current.done (h : Current verbs single store console) {errand : Errand} {after : Console}
    (still : console.Evolves Panel.Still after) {served : Served} (nothing : errand.put? served = none) :
    Done verbs single console store errand ⟨after, store, .answered served⟩ := by
  refine ⟨still.mono fun _ _ ↦ Panel.Still.toKept, h.available, fun panel mem ↦ ?_, ?_⟩
  · obtain ⟨index, found⟩ := List.getElem?_of_mem mem
    obtain ⟨before, there, same⟩ := forall₂_getElem? still.panels found
    intro form shown
    rw [same.key]
    exact h.panels before (List.mem_of_getElem? there) form (same.form ▸ shown)
  · dsimp only
    rw [nothing]
    exact answered_none fun _ ↦ rfl

theorem Current.done_unchanged (h : Current verbs single store console) {errand : Errand} {served : Served}
    (nothing : errand.put? served = none) :
    Done verbs single console store errand ⟨console, store, .answered served⟩ :=
  h.done (refl_of (Console.Evolves Panel.Still) console) nothing

theorem put?_refused (errand : Errand) (refusal : Refusal) : errand.put? (.refused refusal) = none := by
  cases errand with
  | setValue verb value trigger =>
    have status : refusal.status ≠ 200 := by cases refusal <;> simp [Refusal.status]
    exact if_neg status
  | _ => rfl

/-- An interaction saves values that the store has already. -/
theorem Current.done_interact (h : Current verbs single store console) (trigger : String) :
    Done verbs single console store (.interact trigger) (perform console store (.interact trigger)) := by
  rw [perform]
  dsimp only
  rw [Console.notifyAll]
  split
  · next console' store' notified =>
    split at notified
    · obtain ⟨panels, next, saved, steps, available, same⟩ :=
        Console.savePanels_loads h.available h.storable h.panels
      rw [saved] at notified
      cases notified
      refine ⟨⟨rfl, steps.imp ?_⟩, available, fun panel mem ↦ ?_, answered_none same⟩
      · rintro panel _ ⟨state, rfl⟩
        exact ⟨⟨rfl, rfl, rfl⟩, id⟩
      · obtain ⟨index, found⟩ := List.getElem?_of_mem mem
        obtain ⟨before, there, state, rfl⟩ := forall₂_getElem? steps found
        exact (h.panels before (List.mem_of_getElem? there)).of_load (same before.key)
    · cases notified
  · exact h.done_unchanged rfl

/-- The other panels are current after a value has been put on one. -/
theorem Current.other_put (h : Current verbs single store console) (plain : Console.PlainVerbs verbs single)
    {index place : Nat} {panel other : Panel} (found : console.panels[index]? = some panel)
    (there : console.panels[place]? = some other) (ne : index ≠ place) {next : Store} {value : Json}
    (loads : ∀ key, next.load key = loadAfter store single console.path (some (panel.verb, value)) key) :
    other.IsCurrent next := by
  have mem := List.mem_of_getElem? there
  refine (h.panels other mem).of_load ?_
  rw [loads, loadAfter, if_neg]
  rintro ⟨-, same⟩
  rw [h.shaped.key mem] at same
  obtain ⟨verb, -⟩ :=
    Console.keyOf_inj plain (h.shaped.verb_mem mem) (h.shaped.verb_mem (List.mem_of_getElem? found)) same
  exact ne (h.shaped.eq_of_verb found there verb.symm)

/-- A value that has been put on a panel is new in the store, and nothing else is. -/
theorem Current.done_put (h : Current verbs single store console) (plain : Console.PlainVerbs verbs single)
    {verb trigger : String} {value : Json} (mem : trigger ∈ Store.saveTriggers) (storable : value.Storable)
    {index : Nat} {panel : Panel} (found : console.panels[index]? = some panel)
    (named : panel.verb = Text.upper verb) :
    Done verbs single console store (.setValue verb value trigger)
      (setValue console store index panel value trigger) := by
  have here := List.mem_of_getElem? found
  rw [setValue]
  split
  · next rendered =>
    cases shown : panel.form with
    | none =>
      rw [Panel.setValue, shown]
      exact h.done_unchanged (put?_refused _ _)
    | some form =>
      obtain ⟨listeners, -⟩ := h.panels panel here form shown
      obtain ⟨state, next, saved, available, loads⟩ := Panel.save_loads h.available
        { panel with form := some { form with value } } fun _ ↦ storable
      have mounted : panel.phase ≠ .unmounted := fun unmounted ↦ by
        rw [Panel.isRendered, unmounted] at rendered
        cases rendered
      rw [Panel.setValue_eq shown listeners mem, saved]
      have key := h.shaped.key here
      have loads : ∀ key, next.load key =
          loadAfter store single console.path (some (panel.verb, value)) key := by
        intro other
        rw [loads, loadAfter, ← key]
        have same : (panel.phase ≠ .unmounted ∧ value.isEmpty = false ∧ panel.key = other) ↔
            (value.isEmpty = false ∧ other = panel.key) :=
          ⟨fun here ↦ ⟨here.2.1, here.2.2.symm⟩, fun here ↦ ⟨mounted, here.1, here.2.symm⟩⟩
        exact if_congr same rfl rfl
      have answered : Answered verbs single console.path store next (some (panel.verb, value)) :=
        ⟨fun _ _ same ↦ (Prod.mk.inj (Option.some.inj same)).1 ▸ h.shaped.verb_mem here, loads⟩
      refine ⟨console.evolves_setPanel index fun old there ↦ ?_, available, fun other mem ↦ ?_,
        named ▸ answered⟩
      · rw [found] at there
        obtain rfl := Option.some.inj there
        exact ⟨⟨rfl, rfl, rfl⟩, id⟩
      · obtain ⟨place, there⟩ := List.getElem?_of_mem mem
        have there : (console.panels.set index _)[place]? = some other := there
        rw [List.getElem?_set] at there
        split at there
        · -- The panel itself has the value that it has saved, unless that one is empty.
          split at there
          · obtain rfl := Option.some.inj there
            rintro _ ⟨⟩
            refine ⟨listeners, ?_⟩
            cases content : value.isEmpty with
            | true => exact .inl rfl
            | false =>
              right
              rw [loads]
              exact (if_pos ⟨content, key⟩).symm
          · cases there
        · next elsewhere => exact h.other_put plain found there elsewhere loads
  · exact h.done_unchanged (put?_refused _ _)

/-- **What an errand does.** The console stays current, and only a value that has been set with success, and
that has content, is new in the store. -/
theorem Current.perform (h : Current verbs single store console) (plain : Console.PlainVerbs verbs single)
    {errand : Errand} (formed : errand.WellFormed) :
    Done verbs single console store errand (perform console store errand) := by
  cases errand with
  | read => exact h.done_unchanged rfl
  | copy => exact h.done_unchanged rfl
  | interact trigger => exact h.done_interact trigger
  | select verb =>
    rw [Host.perform]
    dsimp only
    split
    · next after _ selected =>
      refine h.done ?_ rfl
      rw [Console.select] at selected
      split at selected
      · cases selected
      · split at selected
        · cases selected
          exact console.still_showOnly _
        · cases selected
    · exact h.done_unchanged rfl
    · exact h.done_unchanged rfl
  | submit verb =>
    rw [Host.perform]
    dsimp only
    split
    · refine ⟨refl_of (Console.Evolves Panel.Kept) console, h.available, h.panels, ⟨verb, rfl⟩, rfl, rfl⟩
    · exact h.done_unchanged rfl
  | setValue verb value trigger =>
    rw [Host.perform]
    dsimp only
    split
    · next index panel found =>
      obtain ⟨place, there, same⟩ := Option.bind_eq_some_iff.mp found
      obtain ⟨panel', at_, pair⟩ := Option.map_eq_some_iff.mp same
      obtain ⟨rfl, rfl⟩ := Prod.mk.inj pair
      obtain ⟨_, named, -⟩ := List.findIdx?_eq_some_iff_getElem.mp there
      obtain ⟨bound, rfl⟩ := List.getElem?_eq_some_iff.mp at_
      exact h.done_put plain formed.1 formed.2 at_ (beq_iff_eq.mp named)
    · exact h.done_unchanged (put?_refused _ _)

end VerbForms.Host
