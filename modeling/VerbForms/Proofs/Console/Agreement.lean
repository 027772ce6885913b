import VerbForms.Proofs.Console.Activity
import VerbForms.Proofs.Console.Evolution
import VerbForms.Proofs.Console.Selection
import VerbForms.Proofs.Panel.Entry

/-!
# Consoles that agree on a key

Two runs of a console seen by one who knows a single key: the panel with the key is the same in both but
for being visible, and so is what is under way for it. The same event keeps this (`Agrees.perform`), and
so do different events for panels with other keys (`Agrees.apart`).
-/

namespace VerbForms

namespace Panel

variable {key : String} {panel other last : Panel}

/-- One panel in two runs, the same in both but for being visible if it has the key. -/
structure Parallel (key : String) (panel other : Panel) : Prop extends Alike panel other where
  own : panel.key = key → Twins panel other

theorem Twins.parallel (h : Twins panel other) : Parallel key panel other := by
  obtain ⟨visible, rfl⟩ := h
  exact ⟨⟨rfl, rfl, rfl⟩, fun _ ↦ ⟨visible, rfl⟩⟩

theorem Alike.parallel (h : Alike panel other) (apart : panel.key ≠ key) : Parallel key panel other :=
  ⟨h, fun own ↦ absurd own apart⟩

theorem Parallel.refl (key : String) (panel : Panel) : Parallel key panel panel :=
  Twins.parallel ⟨panel.visible, rfl⟩

theorem Parallel.symm (h : Parallel key panel other) : Parallel key other panel := by
  refine ⟨h.toAlike.symm, fun own ↦ ?_⟩
  obtain ⟨visible, rfl⟩ := h.own (h.toAlike.key.symm.trans own)
  exact ⟨panel.visible, rfl⟩

theorem Parallel.trans (h : Parallel key panel other) (more : Parallel key other last) :
    Parallel key panel last := by
  refine ⟨h.toAlike.trans more.toAlike, fun own ↦ ?_⟩
  obtain ⟨visible, rfl⟩ := h.own own
  obtain ⟨seen, rfl⟩ := more.own own
  exact ⟨seen, rfl⟩

instance : IsPreorder Panel (Parallel key) where
  refl := .refl key
  trans _ _ _ := .trans

theorem Parallel.unmount (h : Parallel key panel other) : Parallel key panel.unmount other.unmount := by
  refine ⟨⟨h.verb, h.path, h.single⟩, fun own ↦ ?_⟩
  obtain ⟨visible, rfl⟩ := h.own own
  exact ⟨false, rfl⟩

end Panel

/-- At each place of two related lists there is nothing in both, or something related. -/
theorem forall₂_getElem?_cases {α β : Type} {r : α → β → Prop} {as : List α} {bs : List β}
    (h : List.Forall₂ r as bs) (index : Nat) :
    as[index]? = none ∧ bs[index]? = none ∨
      ∃ a b, as[index]? = some a ∧ bs[index]? = some b ∧ r a b := by
  induction h generalizing index with
  | nil => exact .inl ⟨rfl, rfl⟩
  | cons head _ ih =>
    cases index with
    | zero => exact .inr ⟨_, _, rfl, rfl, head⟩
    | succ index => exact ih index

theorem forall₂_set {α β : Type} {r : α → β → Prop} {as : List α} {bs : List β}
    (h : List.Forall₂ r as bs) (index : Nat) {a : α} {b : β} (step : r a b) :
    List.Forall₂ r (as.set index a) (bs.set index b) := by
  induction h generalizing index with
  | nil => exact .nil
  | cons head tail ih =>
    cases index with
    | zero => exact .cons step tail
    | succ index => exact .cons head (ih index)

namespace Console

/-! ### The panels of a console -/

theorem parallel_showOnly {key : String} (console : Console) (verb : String) :
    Evolves (Panel.Parallel key) console (console.showOnly verb) :=
  evolves_of_map (fun _ ↦ Panel.Twins.parallel ⟨_, rfl⟩) rfl rfl

theorem parallel_selectFirst {key : String} (console : Console) :
    Evolves (Panel.Parallel key) console console.selectFirst := by
  rw [selectFirst]
  split
  · exact refl_of _ console
  · split
    · exact console.parallel_showOnly _
    · exact refl_of _ console

theorem parallel_receiveResource {key : String} (console : Console)
    (answer : Except Remote.RequestError Json) :
    Evolves (Panel.Parallel key) console (console.receiveResource answer).1 := by
  unfold receiveResource
  split <;> exact evolves_of_panels rfl rfl

theorem Evolves.unmount {key : String} {console other : Console}
    (h : Evolves (Panel.Parallel key) console other) :
    Evolves (Panel.Parallel key) console.unmount other.unmount := by
  refine ⟨h.path, ?_⟩
  rw [Console.unmount, Console.unmount, List.forall₂_map_left_iff, List.forall₂_map_right_iff]
  exact h.panels.imp fun _ _ ↦ .unmount

/-- The forms of all panels are saved: the stores still agree on the key. -/
theorem savePanels_agree {key : String} {panels others : List Panel} {store place : Store}
    (agree : store.AgreesOn key place) (h : List.Forall₂ (Panel.Parallel key) panels others) :
    List.Forall₂ (Panel.Parallel key) (savePanels store panels).1 (savePanels place others).1 ∧
      (savePanels store panels).2.AgreesOn key (savePanels place others).2 := by
  induction h generalizing store place with
  | nil => exact ⟨.nil, agree⟩
  | @cons panel other panels others head _ ih =>
    obtain ⟨state, saved⟩ := panel.saveForm_eq store
    obtain ⟨result, savedOther⟩ := other.saveForm_eq place
    have alike : Panel.Alike (panel.saveForm store).1 (other.saveForm place).1 := by
      rw [saved, savedOther]
      exact ⟨head.verb, head.path, head.single⟩
    have kept : (panel.saveForm store).1.key = panel.key := by
      rw [saved]
      rfl
    rw [savePanels, savePanels]
    by_cases own : panel.key = key
    · have twins := Panel.TwinsAt.saveForm (x := (panel, store)) (y := (other, place))
        ⟨own, head.own own, agree⟩
      obtain ⟨rest, stores⟩ := ih twins.store
      exact ⟨.cons ⟨alike, fun _ ↦ twins.panel⟩ rest, stores⟩
    -- The forms may differ here, but each of them is saved under another key.
    · have apart : other.key ≠ key := head.toAlike.key ▸ own
      have written := (Panel.agreesOn_saveForm own store).symm.trans
        (agree.trans (Panel.agreesOn_saveForm apart place))
      obtain ⟨rest, stores⟩ := ih written
      exact ⟨.cons (alike.parallel (kept ▸ own)) rest, stores⟩

/-! ### Consoles at work -/

/-- Whether the event happens to the console, and not to the store by others. -/
def Event.isInside {σ : Type} : Event σ → Bool
  | .elsewhere _ => false
  | _ => true

namespace Activity

/-- Something happens to one panel. -/
theorem evolves_put {σ : Type} {r : Panel → Panel → Prop} [IsPreorder Panel r] {a : Activity σ}
    {index : Nat} {panel : Panel} (found : a.console.panels[index]? = some panel) (due : Bool)
    {x : Panel.Activity σ} (step : r panel x.panel) :
    Evolves r a.console (a.put index due x).console := by
  have evolves : Evolves r a.console (a.console.setPanel index x.panel) := by
    refine a.console.evolves_setPanel index fun old here ↦ ?_
    rw [found] at here
    exact Option.some.inj here ▸ step
  exact ⟨evolves.path, evolves.panels⟩

variable {key : String} {a b c : Activity Store} {index : Nat} {panel : Panel}

/-- A console in two runs: the panels with the key are the same in both but for being visible, and so is
what is under way for them. -/
structure Matches (key : String) (a b : Activity Store) : Prop where
  console : Evolves (Panel.Parallel key) a.console b.console
  work : ∀ index panel, a.console.panels[index]? = some panel → panel.key = key →
    b.work index = a.work index

/-- The stores agree on the key as well. -/
structure Agrees (key : String) (a b : Activity Store) : Prop extends Matches key a b where
  store : a.store.AgreesOn key b.store

theorem Matches.symm (h : Matches key a b) : Matches key b a where
  console := ⟨h.console.path.symm, (h.console.panels.imp fun _ _ ↦ .symm).flip⟩
  work index other there own := by
    obtain ⟨panel, found, parallel⟩ := forall₂_getElem? h.console.panels there
    exact (h.work index panel found (parallel.toAlike.key.symm.trans own)).symm

theorem Matches.trans (h : Matches key a b) (more : Matches key b c) : Matches key a c where
  console := trans_of (Evolves (Panel.Parallel key)) h.console more.console
  work index panel found own := by
    obtain ⟨other, there, parallel⟩ := forall₂_getElem?_left h.console.panels found
    exact (more.work index other there (parallel.toAlike.key.trans own)).trans
      (h.work index panel found own)

theorem Matches.refl (key : String) (a : Activity Store) : Matches key a a :=
  ⟨refl_of _ a.console, fun _ _ _ _ ↦ rfl⟩

theorem Agrees.refl (key : String) (a : Activity Store) : Agrees key a a :=
  ⟨.refl key a, .refl key a.store⟩

theorem Agrees.symm (h : Agrees key a b) : Agrees key b a := ⟨h.toMatches.symm, h.store.symm⟩

theorem Agrees.trans (h : Agrees key a b) (more : Agrees key b c) : Agrees key a c :=
  ⟨h.toMatches.trans more.toMatches, h.store.trans more.store⟩

theorem Agrees.of_console {b : Activity Store} (console : Evolves (Panel.Parallel key) a.console b.console)
    (work : b.work = a.work) (store : b.store = a.store) : Agrees key a b :=
  ⟨⟨console, fun _ _ _ _ ↦ by rw [work]⟩, store ▸ .refl key a.store⟩

/-- What one cannot see happens in each of the runs. -/
theorem Agrees.around (h : Agrees key a b) {c d : Activity Store} (left : Agrees key a c)
    (right : Agrees key b d) : Agrees key c d :=
  left.symm.trans (h.trans right)

/-! #### What cannot be seen -/

theorem agrees_select (a : Activity Store) (verb : String) : Agrees key a (a.perform (.select verb)) := by
  rw [Activity.perform]
  split
  · next console shown selected =>
    obtain ⟨panel, -, -, rfl, -⟩ := select_eq_ok_iff.mp selected
    exact .of_console (a.console.parallel_showOnly _) rfl rfl
  · exact .refl key a

theorem agrees_finish (a : Activity Store) : Agrees key a (a.perform .finish) := by
  rw [Activity.perform]
  split
  · exact .of_console a.console.parallel_selectFirst rfl rfl
  · exact .refl key a

theorem agrees_read (a : Activity Store) (answer : Except Remote.RequestError Json) :
    Agrees key a (a.perform (.read answer)) := by
  rw [Activity.perform]
  split
  · exact .of_console (a.console.parallel_receiveResource answer) rfl rfl
  · exact .refl key a

/-- Something happens to a panel with another key. -/
theorem agrees_put (found : a.console.panels[index]? = some panel) (apart : panel.key ≠ key)
    (due : Bool) {x : Panel.Activity Store} (alike : Panel.Alike panel x.panel)
    (store : a.store.AgreesOn key x.store) : Agrees key a (a.put index due x) := by
  refine ⟨⟨evolves_put found due (alike.parallel apart), fun place other there own ↦ if_neg ?_⟩, store⟩
  rintro rfl
  rw [found] at there
  exact apart (Option.some.inj there ▸ own)

/-- The panel at a place, if there is any, has another key. -/
def IsApart (key : String) (a : Activity Store) (index : Nat) : Prop :=
  ∀ panel, a.console.panels[index]? = some panel → panel.key ≠ key

theorem isApart_or (a : Activity Store) (key : String) (index : Nat) :
    a.IsApart key index ∨ ∃ panel, a.console.panels[index]? = some panel ∧ panel.key = key := by
  rw [IsApart, or_iff_not_imp_left]
  push Not
  exact id

theorem agrees_begin (apart : a.IsApart key index) : Agrees key a (a.perform (.begin index)) := by
  rw [Activity.perform]
  split
  · next panel found =>
    split
    · refine agrees_put found (apart panel found) false
        ((a.panelAt index panel).step .load).alike ?_
      rw [Panel.Activity.perform]
      split <;> exact .refl key a.store
    · exact .refl key a
  · exact .refl key a

theorem agrees_panel (apart : a.IsApart key index) (event : Panel.Event Store) :
    Agrees key a (a.perform (.panel index event)) := by
  rw [Activity.perform]
  split
  · next panel found =>
    split
    · next own =>
      exact agrees_put found (apart panel found) _ ((a.panelAt index panel).step event).alike
        (((a.panelAt index panel).step event).agreesOn (apart panel found) own)
    · exact .refl key a
  · exact .refl key a

/-! #### What can be seen -/

/-- The panel with the key at the same place in both runs. -/
theorem Agrees.twins (h : Agrees key a b) (found : a.console.panels[index]? = some panel)
    (own : panel.key = key) :
    ∃ other, b.console.panels[index]? = some other ∧ b.work index = a.work index ∧
      Panel.Activity.Twins key (a.panelAt index panel) (b.panelAt index other) := by
  obtain ⟨other, there, parallel⟩ := forall₂_getElem?_left h.console.panels found
  have work := h.work index panel found own
  refine ⟨other, there, work, ⟨own, parallel.own own, h.store⟩, ?_, ?_⟩
  · rw [panelAt, panelAt, work]
  · rw [panelAt, panelAt, work]

theorem Agrees.isApart (h : Agrees key a b) (apart : a.IsApart key index) : b.IsApart key index := by
  intro other there
  obtain ⟨panel, found, parallel⟩ := forall₂_getElem? h.console.panels there
  exact parallel.toAlike.key ▸ apart panel found

/-- Something happens to the panel with the key in both runs. -/
theorem Agrees.put (h : Agrees key a b) (due : Bool) {x y : Panel.Activity Store}
    (twins : Panel.Activity.Twins key x y) : Agrees key (a.put index due x) (b.put index due y) := by
  refine ⟨⟨⟨h.console.path, ?_⟩, fun place panel there own ↦ ?_⟩, twins.here.store⟩
  · exact forall₂_set h.console.panels index twins.here.panel.parallel
  · rw [Activity.put, Activity.put]
    dsimp only
    split
    · rw [twins.loads, twins.sending]
    · next elsewhere =>
      have found : a.console.panels[place]? = some panel := by
        rwa [Activity.put, setPanel, List.getElem?_set_ne (Ne.symm elsewhere)] at there
      exact h.work place panel found own

theorem Agrees.own (h : Agrees key a b) {event : Event Store} (found : a.console.panels[index]? = some panel)
    (own : panel.key = key) (touches : event = .begin index ∨ ∃ inner, event = .panel index inner) :
    Agrees key (a.perform event) (b.perform event) := by
  obtain ⟨other, there, work, twins⟩ := h.twins found own
  rcases touches with rfl | ⟨inner, rfl⟩
  · rw [Activity.perform, Activity.perform, found, there, work]
    dsimp only
    split
    · exact h.put false (twins.perform (.inr rfl))
    · exact h
  · rw [Activity.perform, Activity.perform, found, there, work]
    dsimp only
    split
    · next inside => exact h.put _ (twins.perform (.inl inside))
    · exact h

/-- **Different events for panels with other keys** cannot be seen. -/
theorem Agrees.apart (h : Agrees key a b) (apart : a.IsApart key index) (event other : Panel.Event Store) :
    Agrees key (a.perform (.panel index event)) (b.perform (.panel index other)) :=
  h.around (agrees_panel apart event) (agrees_panel (h.isApart apart) other)

/-- The same has been done to all panels, which have kept their keys. -/
theorem Agrees.of_keys (h : Agrees key a b) {c d : Activity Store}
    (console : Evolves (Panel.Parallel key) c.console d.console)
    (keys : c.console.panels.map Panel.key = a.console.panels.map Panel.key) (work : c.work = a.work)
    (workOther : d.work = b.work) (store : c.store.AgreesOn key d.store) : Agrees key c d := by
  refine ⟨⟨console, fun index panel there own ↦ ?_⟩, store⟩
  have here := congrArg (·[index]?) keys
  simp only [List.getElem?_map, there, Option.map_some] at here
  obtain ⟨old, found, same⟩ := Option.map_eq_some_iff.mp here.symm
  rw [work, workOther]
  exact h.work index old found (same.trans own)

theorem Agrees.notifyAll (h : Agrees key a b) (trigger : String) :
    Agrees key (a.perform (.notifyAll trigger)) (b.perform (.notifyAll trigger)) := by
  rw [Activity.perform, Activity.perform, Console.notifyAll, Console.notifyAll]
  by_cases saves : trigger ∈ Store.saveTriggers
  · rw [if_pos saves, if_pos saves]
    obtain ⟨panels, stores⟩ := savePanels_agree h.store h.console.panels
    exact h.of_keys ⟨h.console.path, panels⟩ (map_savePanels Panel.key (fun _ _ ↦ rfl) _ _) rfl rfl stores
  · rw [if_neg saves, if_neg saves]
    exact h

/-- **The same event** leads to what looks the same, unless others change the stores. -/
theorem Agrees.perform (h : Agrees key a b) {event : Event Store} (inside : event.isInside = true) :
    Agrees key (a.perform event) (b.perform event) := by
  have keys (panels : List Panel) : (panels.map Panel.unmount).map Panel.key = panels.map Panel.key := by
    rw [List.map_map]
    rfl
  cases event with
  | start =>
    refine ⟨⟨h.console, fun index panel found own ↦ ?_⟩, h.store⟩
    rw [Activity.perform, Activity.perform]
    dsimp only
    rw [h.work index panel found own]
  | begin index =>
    rcases a.isApart_or key index with apart | ⟨panel, found, own⟩
    · exact h.around (agrees_begin apart) (agrees_begin (h.isApart apart))
    · exact h.own found own (.inl rfl)
  | read answer => exact h.around (a.agrees_read answer) (b.agrees_read answer)
  | finish => exact h.around a.agrees_finish b.agrees_finish
  | cancel => exact ⟨⟨h.console, h.work⟩, h.store⟩
  | panel index event =>
    rcases a.isApart_or key index with apart | ⟨panel, found, own⟩
    · exact h.apart apart event event
    · exact h.own found own (.inr ⟨event, rfl⟩)
  | select verb => exact h.around (a.agrees_select verb) (b.agrees_select verb)
  | notifyAll trigger => exact h.notifyAll trigger
  | copy => exact h
  | unmount => exact h.of_keys h.console.unmount (keys _) rfl rfl h.store
  | close =>
    have shut := h.console.unmount
    exact h.of_keys ⟨shut.path, shut.panels⟩ (keys _) rfl rfl h.store
  | elsewhere change => cases inside

end Activity

end Console

end VerbForms
