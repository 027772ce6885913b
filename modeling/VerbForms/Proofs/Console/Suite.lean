import VerbForms.Proofs.Console.Agreement
import VerbForms.Proofs.Console.Keys
import VerbForms.Proofs.Text.UpperCase

/-!
# Consoles over one store

Several consoles that keep their forms in one store, made one after the other and each of them at work in
between. The form of a verb and a path is the same in two runs that differ only in what happens to other
forms (`Suite.forms_do_not_leak`): its key is that of no other form (`Store.entryKey_inj`), and what one
sees who knows the key is the same after every event (`Suite.Agrees.perform`).
-/

namespace VerbForms

/-! ### Keys -/

/-- **The keys of different forms are different**, whatever their paths are. -/
theorem Store.entryKey_inj {verb other path place : String} (plain : ' ' ∉ verb.toList)
    (plainOther : ' ' ∉ other.toList) (same : entryKey (some verb) path = entryKey (some other) place) :
    Text.upper verb = Text.upper other ∧ path = place :=
  Console.append_blank_inj (Text.blank_not_mem_upper plain) (Text.blank_not_mem_upper plainOther) same

theorem Store.entryKey_upper (verb path : String) :
    entryKey (some (Text.upper verb)) path = entryKey (some verb) path := by
  rw [entryKey, entryKey, Text.upper_upper]

/-- A panel has the key of a form if and only if it has its verb and its path. -/
theorem Console.Shaped.key_eq_iff {verbs : List String} {console : Console} {panel : Panel}
    (h : Shaped verbs false console) (plainVerbs : PlainVerbs verbs false) (mem : panel ∈ console.panels)
    {verb path : String} (plain : ' ' ∉ verb.toList) :
    panel.key = Store.entryKey (some verb) path ↔ panel.verb = Text.upper verb ∧ panel.path = path := by
  have upper := upper_of_mem_verbsOf (h.verb_mem mem)
  have key : panel.key = Store.entryKey (some panel.verb) panel.path := by
    rw [Panel.key, h.single panel mem]
    rfl
  rw [key]
  constructor
  · intro same
    have apart := Store.entryKey_inj (plainVerbs panel.verb (h.verb_mem mem)) plain same
    rwa [upper] at apart
  · rintro ⟨same, rfl⟩
    rw [same, Store.entryKey_upper]

/-! ### Consoles keep their panels -/

namespace Console

theorem alike_savePanels {σ : Type} [EntryStore σ] (store : σ) (panels : List Panel) :
    List.Forall₂ Panel.Alike panels (savePanels store panels).1 := by
  induction panels generalizing store with
  | nil => exact .nil
  | cons panel panels ih =>
    obtain ⟨state, saved⟩ := panel.saveForm_eq store
    rw [savePanels]
    refine .cons ?_ (ih _)
    rw [saved]
    exact ⟨rfl, rfl, rfl⟩

namespace Activity

variable {σ : Type} [EntryStore σ]

/-- Whatever happens to a console, it keeps its path and its panels their verbs. -/
theorem alike_perform (a : Activity σ) (event : Event σ) :
    Evolves Panel.Alike a.console (a.perform event).console := by
  have still {after : Console} (h : Evolves Panel.Still a.console after) :
      Evolves Panel.Alike a.console after :=
    h.mono fun _ _ still ↦ still.toAlike
  cases event with
  | begin index =>
    rw [Activity.perform]
    split
    · next panel found =>
      split
      · exact evolves_put found _ ((a.panelAt index panel).step .load).alike
      · exact refl_of _ a.console
    · exact refl_of _ a.console
  | read answer =>
    rw [Activity.perform]
    split
    · exact still (a.console.still_receiveResource answer)
    · exact refl_of _ a.console
  | finish =>
    rw [Activity.perform]
    split
    · exact still a.console.still_selectFirst
    · exact refl_of _ a.console
  | panel index event =>
    rw [Activity.perform]
    split
    · next panel found =>
      split
      · exact evolves_put found _ ((a.panelAt index panel).step event).alike
      · exact refl_of _ a.console
    · exact refl_of _ a.console
  | select verb =>
    rw [Activity.perform]
    split
    · next selected =>
      obtain ⟨panel, -, -, rfl, -⟩ := select_eq_ok_iff.mp selected
      exact still (a.console.still_showOnly _)
    · exact refl_of _ a.console
  | notifyAll trigger =>
    rw [Activity.perform, Console.notifyAll]
    by_cases saves : trigger ∈ Store.saveTriggers
    · rw [if_pos saves]
      exact ⟨rfl, alike_savePanels a.store a.console.panels⟩
    · rw [if_neg saves]
      exact refl_of _ a.console
  | unmount => exact still (evolves_of_map Panel.still_unmount rfl rfl)
  | close => exact still a.console.still_close
  | _ => exact refl_of _ a.console

end Activity

end Console

/-! ### Suites -/

/-- Consoles over one store. -/
structure Suite where
  store : Store
  consoles : List (Console.Activity Store)

namespace Suite

/-- What happens at one moment. -/
inductive Event where
  /-- A console with a panel for each of some verbs is made. -/
  | add (path : String) (verbs : List String) (gateway : Remote.Gateway)
  /-- Something happens to one of the consoles. -/
  | visit (id : Nat) (event : Console.Event Store)

/-- No verb of a console that is made has a blank in it. -/
def Event.IsPlain : Event → Prop
  | .add _ verbs _ => Console.PlainVerbs verbs false
  | .visit _ _ => True

/-- No console has been made. -/
def fresh (store : Store) : Suite := ⟨store, []⟩

/-- A console with the store as it is. -/
def face (s : Suite) (a : Console.Activity Store) : Console.Activity Store := { a with store := s.store }

/-- The consoles after an event. -/
def perform (s : Suite) : Event → Suite
  | .add path verbs gateway =>
    match Console.make path verbs false gateway with
    | .ok console => { s with consoles := s.consoles ++ [.fresh console s.store] }
    | .error _ => s
  | .visit id event =>
    match s.consoles[id]? with
    | some a =>
      if event.isInside then
        let after := (s.face a).perform event
        ⟨after.store, s.consoles.set id after⟩
      else s
    | none => s

/-- The consoles after some events. -/
def run (s : Suite) (events : List Event) : Suite := events.foldl perform s

/-- A panel of a console. -/
def panel? (s : Suite) (id index : Nat) : Option Panel :=
  s.consoles[id]?.bind fun a ↦ a.console.panels[index]?

/-- The panel at a place, if it is for a verb and a path. -/
def panelFor? (verb path : String) (s : Suite) (id index : Nat) : Option Panel :=
  (s.panel? id index).filter fun panel ↦ panel.verb = Text.upper verb ∧ panel.path = path

/-- Two sequences of events that differ, if at all, in what happens to the panels of other verbs and
paths by themselves, such as the values that are set on their forms. -/
inductive SameFor (verb path : String) : Suite → List Event → List Event → Prop
  | nil (s : Suite) : SameFor verb path s [] []
  | same {s : Suite} {events others : List Event} (event : Event)
      (rest : SameFor verb path (s.perform event) events others) :
      SameFor verb path s (event :: events) (event :: others)
  | apart {s : Suite} {events others : List Event} {id index : Nat} (event other : Panel.Event Store)
      (elsewhere : s.panelFor? verb path id index = none)
      (rest : SameFor verb path (s.perform (.visit id (.panel index event))) events others) :
      SameFor verb path s (.visit id (.panel index event) :: events)
        (.visit id (.panel index other) :: others)

/-! ### Suites of plain consoles -/

variable {s t : Suite} {key verb path : String}

/-- Every console has the panels of some verbs without blanks. -/
def Plain (s : Suite) : Prop :=
  ∀ a ∈ s.consoles, ∃ verbs, Console.PlainVerbs verbs false ∧ Console.Shaped verbs false a.console

theorem Plain.perform (h : Plain s) {event : Event} (plain : event.IsPlain) : Plain (s.perform event) := by
  cases event with
  | add path verbs gateway =>
    rw [Suite.perform]
    split
    · next console made =>
      intro a mem
      rcases List.mem_append.mp mem with old | new
      · exact h a old
      · obtain rfl := List.mem_singleton.mp new
        exact ⟨verbs, plain, (Console.shaped_make made).1⟩
    · exact h
  | visit id event =>
    rw [Suite.perform]
    split
    · next a found =>
      split
      · intro b mem
        rcases List.mem_or_eq_of_mem_set mem with old | rfl
        · exact h b old
        · obtain ⟨verbs, plain, shaped⟩ := h a (List.mem_of_getElem? found)
          exact ⟨verbs, plain, shaped.evolves ((s.face a).alike_perform event)⟩
      · exact h
    · exact h

/-! ### Suites that agree on a key -/

/-- The consoles are the same in two runs to one who knows a key alone. -/
structure Agrees (key : String) (s t : Suite) : Prop where
  store : s.store.AgreesOn key t.store
  consoles : List.Forall₂ (Console.Activity.Matches key) s.consoles t.consoles

/-- Something happens to a console in both runs that keeps what one sees of it. -/
theorem Agrees.visit (h : Agrees key s t) (id : Nat) {event other : Console.Event Store}
    (inside : other.isInside = event.isInside)
    (step : ∀ a b, event.isInside = true → s.consoles[id]? = some a → (s.face a).Agrees key (t.face b) →
      ((s.face a).perform event).Agrees key ((t.face b).perform other)) :
    Agrees key (s.perform (.visit id event)) (t.perform (.visit id other)) := by
  rw [Suite.perform, Suite.perform, inside]
  rcases forall₂_getElem?_cases h.consoles id with ⟨missing, missingToo⟩ | ⟨a, b, found, there, same⟩
  · rw [missing, missingToo]
    exact h
  · rw [found, there]
    dsimp only
    split
    · next happens =>
      have after := step a b happens found ⟨⟨same.console, same.work⟩, h.store⟩
      exact ⟨after.store, forall₂_set h.consoles id after.toMatches⟩
    · exact h

/-- **The same event** keeps what one sees. -/
theorem Agrees.perform (h : Agrees key s t) (event : Event) :
    Agrees key (s.perform event) (t.perform event) := by
  cases event with
  | add path verbs gateway =>
    rw [Suite.perform, Suite.perform]
    split
    · next console _ =>
      refine ⟨h.store, List.rel_append h.consoles (.cons ?_ .nil)⟩
      exact ⟨refl_of _ console, fun _ _ _ _ ↦ rfl⟩
    · exact h
  | visit id event => exact h.visit id rfl fun _ _ inside _ agrees ↦ agrees.perform inside

/-- What happens to the panel of another form cannot be seen, whatever it is. -/
theorem Agrees.apart (h : Agrees key s t) (plain : Plain s) (plainVerb : ' ' ∉ verb.toList)
    (own : key = Store.entryKey (some verb) path) {id index : Nat} (event other : Panel.Event Store)
    (elsewhere : s.panelFor? verb path id index = none) :
    Agrees key (s.perform (.visit id (.panel index event))) (t.perform (.visit id (.panel index other))) := by
  refine h.visit id rfl fun a b _ found agrees ↦ agrees.apart (fun panel there same ↦ ?_) event other
  obtain ⟨verbs, plainVerbs, shaped⟩ := plain a (List.mem_of_getElem? found)
  have mem : panel ∈ a.console.panels := List.mem_of_getElem? there
  have here := (shaped.key_eq_iff plainVerbs mem plainVerb).mp (same.trans own)
  have placed : s.panel? id index = some panel := by
    rw [panel?, found]
    exact there
  rw [panelFor?, placed, Option.filter_eq_none_iff] at elsewhere
  exact elsewhere panel rfl (decide_eq_true here)

/-- What one sees who knows the key is the same after the runs. -/
theorem SameFor.agrees {events others : List Event} (same : SameFor verb path s events others)
    (plain : Plain s) (plainVerb : ' ' ∉ verb.toList) (events_plain : ∀ event ∈ events, event.IsPlain)
    (h : Agrees (Store.entryKey (some verb) path) s t) :
    Plain (s.run events) ∧ Agrees (Store.entryKey (some verb) path) (s.run events) (t.run others) := by
  -- The first run says which panels are for other forms; they are the same panels in the second run.
  induction same generalizing t with
  | nil s => exact ⟨plain, h⟩
  | same event rest ih =>
    obtain ⟨first, later⟩ := List.forall_mem_cons.mp events_plain
    exact ih (plain.perform first) later (h.perform event)
  | apart event other elsewhere rest ih =>
    obtain ⟨first, later⟩ := List.forall_mem_cons.mp events_plain
    exact ih (plain.perform first) later (h.apart plain plainVerb rfl event other elsewhere)

/-- The panels for the verb and the path are the same, but for being visible. -/
theorem Agrees.panelFor (h : Agrees (Store.entryKey (some verb) path) s t) (plain : Plain s)
    (plainVerb : ' ' ∉ verb.toList) (id index : Nat) :
    (t.panelFor? verb path id index).map Panel.concealed =
      (s.panelFor? verb path id index).map Panel.concealed := by
  rw [panelFor?, panelFor?, panel?, panel?]
  rcases forall₂_getElem?_cases h.consoles id with ⟨missing, missingToo⟩ | ⟨a, b, found, there, same⟩
  · rw [missing, missingToo]
  · rw [found, there, Option.bind_some, Option.bind_some]
    rcases forall₂_getElem?_cases same.console.panels index with
      ⟨missing, missingToo⟩ | ⟨panel, other, here, place, parallel⟩
    · rw [missing, missingToo]
    · obtain ⟨verbs, plainVerbs, shaped⟩ := plain a (List.mem_of_getElem? found)
      have own : panel.key = Store.entryKey (some verb) path ↔ _ :=
        shaped.key_eq_iff plainVerbs (List.mem_of_getElem? here) plainVerb
      rw [here, place]
      -- The panel is for the verb and the path in both runs or in neither.
      by_cases hits : panel.verb = Text.upper verb ∧ panel.path = path
      · obtain ⟨visible, rfl⟩ := parallel.own (own.mpr hits)
        simp [Option.filter, hits, Panel.concealed]
      · have misses : ¬ (other.verb = Text.upper verb ∧ other.path = path) := by
          rwa [parallel.verb, parallel.path]
        simp only [Option.filter, hits, misses, decide_false]
        rfl

/-- **The forms of one store do not leak into each other.** Take a verb without a blank and any path, and
two runs of consoles with such verbs over one store that differ only in what happens to other forms, such
as the values that are set on them. The text under the key of the verb and the path is the same after both
runs; so are the panels for them, but for being visible; and so is what a fresh panel for them shows when
it is loaded. Only the verb, up to its case, and the path have that key. -/
theorem forms_do_not_leak (store : Store) {verb path : String} (plainVerb : ' ' ∉ verb.toList)
    {events others : List Event} (plain : ∀ event ∈ events, event.IsPlain)
    (same : SameFor verb path (fresh store) events others) :
    let s := (fresh store).run events
    let t := (fresh store).run others
    t.store.raw? (Store.entryKey (some verb) path) = s.store.raw? (Store.entryKey (some verb) path) ∧
      (∀ id index, (t.panelFor? verb path id index).map Panel.concealed =
        (s.panelFor? verb path id index).map Panel.concealed) ∧
      (∀ answer, (Panel.make verb path false).load t.store answer =
        (Panel.make verb path false).load s.store answer) ∧
      ∀ other place, ' ' ∉ other.toList →
        (Store.entryKey (some other) place = Store.entryKey (some verb) path ↔
          Text.upper other = Text.upper verb ∧ place = path) := by
  intro s t
  have started : Agrees (Store.entryKey (some verb) path) (fresh store) (fresh store) :=
    ⟨.refl _ store, .nil⟩
  obtain ⟨plain, agrees⟩ := same.agrees (fun _ mem ↦ by cases mem) plainVerb plain started
  refine ⟨agrees.store.raw, agrees.panelFor plain plainVerb, fun answer ↦ ?_,
    fun other place plainOther ↦ ?_⟩
  · have key : (Panel.make verb path false).key = Store.entryKey (some verb) path :=
      Store.entryKey_upper verb path
    exact Panel.load_eq (key ▸ agrees.store) answer
  · refine ⟨Store.entryKey_inj plainOther plainVerb, fun ⟨upper, same⟩ ↦ ?_⟩
    rw [Store.entryKey, Store.entryKey, upper, same]

/-- The same events at first. -/
theorem SameFor.after (before : List Event) {events others : List Event}
    (same : SameFor verb path (s.run before) events others) :
    SameFor verb path s (before ++ events) (before ++ others) := by
  induction before generalizing s with
  | nil => exact same
  | cons event before ih => exact .same event (ih same)

/-- Two consoles, the path of one of which looks like a key of the other; the forms of both are loaded. -/
def twoForms : List Event :=
  let answer : Except Remote.RequestError Json := .ok (.object [("type", .text "object")])
  [.add "/a" ["post"] default, .add "/POST /a" ["post"] default] ++
    [0, 1].flatMap fun id ↦
      [.visit id .start, .visit id (.begin 0), .visit id (.panel 0 (.proceed 0 answer)),
        .visit id (.panel 0 (.proceed 0 answer)), .visit id (.panel 0 (.proceed 0 answer))]

/-- Values are set on both forms, and both consoles save them. -/
def entered (value : Json) : List Event :=
  [.visit 1 (.panel 0 (.setValue value none)), .visit 0 (.panel 0 (.setValue (.bool true) none)),
    .visit 1 (.notifyAll "click"), .visit 0 (.notifyAll "blur")]

/-- The second console has a panel for another path, and each value is stored under its own key. -/
theorem texts_entered {value : Json} (content : value.isEmpty = false) :
    ((fresh (.memory [])).run twoForms).panelFor? "post" "/a" 1 0 = none ∧
      let s := (fresh (.memory [])).run (twoForms ++ entered value)
      s.store.raw? "POST /a" = some "true" ∧ s.store.raw? "POST /POST /a" = some value.compact := by
  have plain : Schema.resolve (.object [("type", .text "object")]) =
      .ok (.object [("type", .text "object")]) :=
    Schema.resolve_single (by decide) (by simp) (by simp)
  have verbs : Console.verbsOf ["post"] false = ["POST"] := by decide
  have upper : Text.upper "POST" = "POST" := by decide
  have key : Store.entryKey (some "POST") "/a" = "POST /a" := by decide
  have oddKey : Store.entryKey (some "POST") "/POST /a" = "POST /POST /a" := by decide
  have someContent : (Json.bool true).isEmpty = false := rfl
  have compact : Json.compact (.bool true) = "true" := by decide
  simp [fresh, run, twoForms, entered, Suite.perform, face, panelFor?, panel?, verbs, upper, key, oddKey,
    someContent, content, compact, plain, Console.make, Console.ofPanels, Panel.make,
    Console.Event.isInside, Console.Activity.fresh, Console.Activity.perform, Console.Activity.panelAt,
    Console.Activity.put, Console.setPanel, Console.Work.none, Panel.Event.isOwn, Panel.Activity.perform,
    Panel.Activity.setLoad, Panel.LoadStage.next, Panel.receive, Panel.isDocument, Panel.receiveSchema,
    Panel.attach, Panel.setValue, Panel.Activity.keep, Panel.afterEmission, Panel.saveAll,
    Form.Live.setValue, Form.Emission.idle, Console.notifyAll, Console.savePanels, Panel.saveForm,
    Panel.save, Panel.key, Store.saveTriggers, EntryStore.save, Store.save, Store.write, Store.raw?,
    Assoc.put, Assoc.get?]

/-- Different values are entered for the path that looks like a key: they are stored, and the form whose
key it looks like has its own value. -/
theorem odd_path_keeps_forms_apart :
    ' ' ∉ "post".toList ∧ (∀ event ∈ twoForms ++ entered (.int 1), event.IsPlain) ∧
      SameFor "post" "/a" (fresh (.memory [])) (twoForms ++ entered (.int 1)) (twoForms ++ entered (.int 2)) ∧
      let s := (fresh (.memory [])).run (twoForms ++ entered (.int 1))
      let t := (fresh (.memory [])).run (twoForms ++ entered (.int 2))
      s.store.raw? "POST /POST /a" = some (Json.compact (.int 1)) ∧
        t.store.raw? "POST /POST /a" = some (Json.compact (.int 2)) ∧
        s.store.raw? "POST /a" = some "true" ∧ t.store.raw? "POST /a" = s.store.raw? "POST /a" := by
  have unblank : ' ' ∉ "post".toList := by decide
  have verbs : Console.PlainVerbs ["post"] false := by decide
  have plain : ∀ event ∈ twoForms ++ entered (.int 1), event.IsPlain := by
    simp [twoForms, entered, Event.IsPlain, verbs]
  obtain ⟨elsewhere, own, odd⟩ := @texts_entered (.int 1) rfl
  obtain ⟨-, -, oddToo⟩ := @texts_entered (.int 2) rfl
  have same : SameFor "post" "/a" (fresh (.memory [])) (twoForms ++ entered (.int 1))
      (twoForms ++ entered (.int 2)) :=
    .after twoForms (.apart _ _ elsewhere (.same _ (.same _ (.same _ (.nil _)))))
  have key : Store.entryKey (some "post") "/a" = "POST /a" := by decide
  obtain ⟨text, -⟩ := forms_do_not_leak (.memory []) unblank plain same
  rw [key] at text
  exact ⟨unblank, plain, same, odd, oddToo, own, text⟩

end Suite

end VerbForms
