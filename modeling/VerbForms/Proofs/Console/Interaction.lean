import VerbForms.Proofs.Console.FormInvariant
import Mathlib

/-!
# Interactions with the page

An interaction with the page saves the forms of its panels one after the other, each under a key of its own
(`Shaped.nodup_keys`). A save that fails is passed over, so that what becomes of a panel depends on nothing but
its own turn (`Panel.Turn`), and the interaction as a whole does what the single saves do
(`Activity.interaction_saves_each_form`).
-/

namespace VerbForms

open Store (Fallible)

/-! ### Saves that may fail -/

namespace Store.Fallible

variable {s next : Fallible} {key other : String} {value : Json}

/-- The raw text under a key. -/
def raw? (s : Fallible) (key : String) : Option String := s.store.raw? key

theorem load_eq_of_raw? (same : next.raw? key = s.raw? key) : next.load key = s.load key :=
  congrArg decode same

theorem save_eq_ok_iff : s.save key value = .ok next ↔
    s.fails s.store key value = false ∧ ∃ store, s.store.save key value = .ok store ∧ { s with store } = next := by
  rw [save]
  split
  · next failed => simp [failed]
  · next kept => simp [kept, map_eq_ok]

/-- A save that succeeds sets one raw text if there is something to save. -/
theorem raw?_of_save (saved : s.save key value = .ok next) (other : String) :
    next.raw? other = if value.isEmpty = false ∧ key = other then some value.compact else s.raw? other := by
  obtain ⟨-, store, written, rfl⟩ := save_eq_ok_iff.mp saved
  cases empty : value.isEmpty with
  | true =>
    rw [Store.save, if_pos empty] at written
    cases written
    rfl
  | false =>
    by_cases missing : s.store = .database none
    · rw [missing, Store.save, empty] at written
      cases written
    · obtain ⟨next, same, -, raws⟩ := exists_save missing key value
      obtain rfl : next = store := Except.ok.inj (same.symm.trans written)
      exact (raws other).trans (by rw [empty]; rfl)

/-- A value with content is taken if its save does not fail and there is a place for it. -/
theorem isOk_save_iff (content : value.isEmpty = false) :
    (s.save key value).isOk = true ↔ s.fails s.store key value = false ∧ s.store ≠ .database none := by
  rw [save]
  split
  · next failed => simp [failed, Except.isOk, Except.toBool]
  · next kept =>
    by_cases missing : s.store = .database none
    · simp [missing, Store.save, content, write, Functor.map, Except.map, Except.isOk, Except.toBool]
    · obtain ⟨next, saved, -⟩ := exists_save missing key value
      simp [kept, missing, saved, Functor.map, Except.map, Except.isOk, Except.toBool]

/-- A save does not make a place for values, and it does not decide which saves fail. -/
theorem alike_of_save (saved : s.save key value = .ok next) :
    next.fails = s.fails ∧ (next.store = .database none ↔ s.store = .database none) := by
  obtain ⟨-, store, written, rfl⟩ := save_eq_ok_iff.mp saved
  refine ⟨rfl, ?_⟩
  by_cases missing : s.store = .database none
  · rw [missing, Store.save] at written
    split at written
    · exact iff_of_true (Except.ok.inj written).symm missing
    · cases written
  · obtain ⟨next, same, available, -⟩ := exists_save missing key value
    obtain rfl : next = store := Except.ok.inj (same.symm.trans written)
    exact iff_of_false available missing

end Store.Fallible

/-! ### The turn of a panel -/

namespace Panel

variable {store next turn : Fallible} {panel after : Panel} {good : Form.Live → Prop}

/-- The value of the form is not saved: the panel is unmounted, there is nothing to save, or the save fails. -/
def Passes (store : Fallible) (panel : Panel) (form : Form.Live) : Prop :=
  panel.phase = .unmounted ∨ form.value.isEmpty = true ∨ (store.save panel.key form.value).isOk = false

/-- What comes of the turn of a panel when forms are saved. -/
inductive Turn (store : Fallible) (panel : Panel) : Panel → Fallible → Prop where
  /-- The value of its form is saved, and the panel knows. -/
  | saved {form : Form.Live} {state : FormState} {next : Fallible} : panel.form = some form →
      ¬ Passes store panel form → panel.state = some state → store.save panel.key form.value = .ok next →
      Turn store panel { panel with state := some { state with data := form.value } } next
  | passed : (∀ form, panel.form = some form → Passes store panel form) → Turn store panel panel store

/-- **A form is saved, or nothing is changed.** -/
theorem turn_saveForm (carries : panel.Carries good) (store : Fallible) :
    Turn store panel (panel.saveForm store).1 (panel.saveForm store).2 := by
  rw [saveForm]
  split
  · next form shown =>
    have passed (passes : Passes store panel form) : Turn store panel panel store :=
      .passed fun other there ↦ Option.some.inj (shown.symm.trans there) ▸ passes
    rw [save]
    split
    · next unmounted => exact passed (.inl unmounted)
    · next mounted =>
      split
      · next e failed =>
        have failed : store.save panel.key form.value = .error e := failed
        exact passed (.inr (.inr (by rw [failed]; rfl)))
      · next next saved =>
        have saved : store.save panel.key form.value = .ok next := saved
        split
        · next empty =>
          obtain ⟨-, kept, written, rfl⟩ := Store.Fallible.save_eq_ok_iff.mp saved
          rw [Store.save, if_pos empty] at written
          cases written
          exact passed (.inr (.inl empty))
        · next content =>
          obtain ⟨state, known⟩ := Option.isSome_iff_exists.mp (carries form shown).2
          have taken : ¬ Passes store panel form := by
            rintro (unmounted | empty | failed)
            · exact mounted unmounted
            · exact content empty
            · rw [saved] at failed
              cases failed
          rw [known]
          exact .saved shown taken known saved
  · next bare =>
    refine .passed fun form shown ↦ ?_
    rw [bare] at shown
    cases shown

/-- A turn sets no raw text under another key. -/
theorem Turn.raw?_of_ne (h : Turn store panel after next) {key : String} (other : panel.key ≠ key) :
    next.raw? key = store.raw? key := by
  cases h with
  | saved _ _ _ saved => rw [Store.Fallible.raw?_of_save saved, if_neg fun both ↦ other both.2]
  | passed _ => rfl

theorem Turn.alike (h : Turn store panel after next) :
    next.fails = store.fails ∧ (next.store = .database none ↔ store.store = .database none) := by
  cases h with
  | saved _ _ _ saved => exact Store.Fallible.alike_of_save saved
  | passed _ => exact ⟨rfl, .rfl⟩

/-- What an interaction with the page makes of a panel: from the store as it was, over the store at the turn of
the panel, to the store at the end. -/
structure Interacted (store turn last : Fallible) (panel after : Panel) : Prop where
  /-- Only what the panel knows to be stored is changed. -/
  kept : ∃ state, after = { panel with state }
  /-- A value with content that the store takes is stored, and the panel knows. -/
  saved : ∀ form, panel.form = some form → panel.phase ≠ .unmounted → form.value.isEmpty = false →
    (turn.save panel.key form.value).isOk = true →
      last.raw? panel.key = some form.value.compact ∧ (form.value.Storable → last.load panel.key = form.value) ∧
        ∃ state, panel.state = some state ∧ after.state = some { state with data := form.value }
  /-- Nothing is changed if there is no form, the panel is unmounted, the value is empty or its save fails. -/
  passed : (∀ form, panel.form = some form → Passes turn panel form) →
    after = panel ∧ last.raw? panel.key = store.raw? panel.key

theorem Turn.interacted {last : Fallible} (h : Turn turn panel after next)
    (before : turn.raw? panel.key = store.raw? panel.key) (later : last.raw? panel.key = next.raw? panel.key) :
    Interacted store turn last panel after := by
  cases h with
  | @saved form state next shown taken known saved =>
    refine ⟨⟨_, rfl⟩, fun other there _ content _ ↦ ?_, fun passes ↦ absurd (passes form shown) taken⟩
    obtain rfl : form = other := Option.some.inj (shown.symm.trans there)
    have raw := Store.Fallible.raw?_of_save saved panel.key
    rw [if_pos ⟨content, rfl⟩] at raw
    refine ⟨later.trans raw, fun storable ↦ ?_, state, known, rfl⟩
    have loads := Store.Fallible.load_of_save storable saved
    rw [content] at loads
    exact (Store.Fallible.load_eq_of_raw? later).trans loads
  | passed passes =>
    refine ⟨⟨panel.state, rfl⟩, fun form shown mounted content taken ↦ ?_, fun _ ↦ ⟨rfl, later.trans before⟩⟩
    rcases passes form shown with unmounted | empty | failed
    · exact absurd unmounted mounted
    · rw [content] at empty
      cases empty
    · rw [taken] at failed
      cases failed

end Panel

/-! ### Forms that can be stored -/

namespace Panel

/-- The data that the load is about to attach can be stored. -/
def LoadStage.Storable : LoadStage → Prop
  | .holding _ _ data => data.Storable
  | _ => True

/-- The values of forms can be stored as long as those can be that are set on them. -/
theorem lasting_storable : Lasting Event.Storable Form.Live.Storable LoadStage.Storable where
  asking := trivial
  received _ := trivial
  read store key _ := store.store.storable_load key
  attached storable := ⟨storable, storable_saveListeners⟩
  setValue h storable := (Form.Live.storable_setValue h storable _).form
  emit h := (Form.Live.storable_emit h _).form
  listen h storable := h.listen storable

end Panel

/-! ### One panel after the other -/

namespace Console

variable {console : Console} {verbs : List String} {single : Bool} {good : Form.Live → Prop}

/-- **The panels of a console have different entries.** -/
theorem Shaped.nodup_keys (h : Shaped verbs single console) : (console.panels.map Panel.key).Nodup := by
  have keys : console.panels.map Panel.key = (verbsOf verbs single).map (keyOf single · console.path) := by
    rw [← h.verbs, List.map_map]
    exact List.map_congr_left fun panel mem ↦ h.key mem
  rw [keys]
  cases single with
  | true =>
    -- There is one panel at most.
    rw [verbsOf, if_pos rfl]
    cases ((verbs.map fun verb ↦ Text.upper (Text.trim verb)).filter (!·.isEmpty)).eraseDups with
    | nil => exact List.nodup_nil
    | cons verb rest => exact List.nodup_singleton _
  | false =>
    refine (nodup_verbsOf verbs false).map_on fun verb mem other memOther same ↦ ?_
    have texts : Text.upper verb ++ " " ++ console.path = Text.upper other ++ " " ++ console.path := same
    have chars := congrArg String.toList texts
    simp only [String.toList_append, List.append_cancel_right_eq] at chars
    rw [← upper_of_mem_verbsOf mem, ← upper_of_mem_verbsOf memOther]
    exact String.toList_inj.mp chars

theorem savePanels_cons {σ : Type} [EntryStore σ] (store : σ) (panel : Panel) (panels : List Panel) :
    savePanels store (panel :: panels) =
      ((panel.saveForm store).1 :: (savePanels (panel.saveForm store).2 panels).1,
        (savePanels (panel.saveForm store).2 panels).2) := rfl

theorem savePanels_append {σ : Type} [EntryStore σ] (store : σ) (first second : List Panel) :
    savePanels store (first ++ second) =
      ((savePanels store first).1 ++ (savePanels (savePanels store first).2 second).1,
        (savePanels (savePanels store first).2 second).2) := by
  induction first generalizing store with
  | nil => rfl
  | cons panel first ih => rw [List.cons_append, savePanels_cons, savePanels_cons, ih]; rfl

theorem length_savePanels {σ : Type} [EntryStore σ] (store : σ) (panels : List Panel) :
    (savePanels store panels).1.length = panels.length :=
  (alike_savePanels store panels).length_eq.symm

/-- The store when the turn of a panel comes. -/
def storeAt {σ : Type} [EntryStore σ] (store : σ) (panels : List Panel) (index : Nat) : σ :=
  (savePanels store (panels.take index)).2

variable {panels : List Panel}

/-- Saving panels sets no raw text under the keys of others. -/
theorem raw?_savePanels (carries : ∀ panel ∈ panels, panel.Carries good) (store : Fallible) {key : String}
    (others : ∀ panel ∈ panels, panel.key ≠ key) : (savePanels store panels).2.raw? key = store.raw? key := by
  induction panels generalizing store with
  | nil => rfl
  | cons panel panels ih =>
    rw [List.forall_mem_cons] at carries others
    exact (ih carries.2 _ others.2).trans ((Panel.turn_saveForm carries.1 store).raw?_of_ne others.1)

/-- Which saves fail is the same at each turn. -/
theorem alike_savePanels_store (carries : ∀ panel ∈ panels, panel.Carries good) (store : Fallible) :
    (savePanels store panels).2.fails = store.fails ∧
      ((savePanels store panels).2.store = .database none ↔ store.store = .database none) := by
  induction panels generalizing store with
  | nil => exact ⟨rfl, .rfl⟩
  | cons panel panels ih =>
    rw [List.forall_mem_cons] at carries
    obtain ⟨fails, missing⟩ := (Panel.turn_saveForm carries.1 store).alike
    obtain ⟨fails', missing'⟩ := ih carries.2 (panel.saveForm store).2
    exact ⟨fails'.trans fails, missing'.trans missing⟩

/-- **Each panel has its turn**, whatever has come of those before it. -/
theorem interacted_savePanels (carries : ∀ panel ∈ panels, panel.Carries good)
    (distinct : (panels.map Panel.key).Nodup) (store : Fallible) {index : Nat} {panel : Panel}
    (found : panels[index]? = some panel) :
    ∃ after, (savePanels store panels).1[index]? = some after ∧
      Panel.Interacted store (storeAt store panels index) (savePanels store panels).2 panel after := by
  obtain ⟨bound, rfl⟩ := List.getElem?_eq_some_iff.mp found
  have split : panels.take index ++ panels[index] :: panels.drop (index + 1) = panels := by
    rw [← List.drop_eq_getElem_cons bound, List.take_append_drop]
  have keys := distinct
  rw [← split] at carries keys
  rw [List.map_append, List.map_cons, List.nodup_append, List.nodup_cons] at keys
  rw [List.forall_mem_append, List.forall_mem_cons] at carries
  obtain ⟨earlier, own, later⟩ := carries
  have run := savePanels_append store (panels.take index) (panels[index] :: panels.drop (index + 1))
  rw [split, savePanels_cons] at run
  rw [run]
  have turn := Panel.turn_saveForm own (storeAt store panels index)
  have length : (savePanels store (panels.take index)).1.length = index := by
    rw [length_savePanels, List.length_take_of_le (Nat.le_of_lt bound)]
  refine ⟨_, ?_, turn.interacted ?_ ?_⟩
  · rw [List.getElem?_append_right length.le, length, Nat.sub_self]
    rfl
  · refine raw?_savePanels earlier store fun other mem same ↦ ?_
    exact keys.2.2 _ (List.mem_map_of_mem mem) _ List.mem_cons_self same
  · refine raw?_savePanels later _ fun other mem same ↦ keys.2.1.1 ?_
    rw [← same]
    exact List.mem_map_of_mem mem

namespace Activity

/-! ### Runs -/

/-- Whatever happens to a console, its panels stay for the same verbs and paths. -/
theorem alike_run {σ : Type} [EntryStore σ] (a : Activity σ) (events : List (Event σ)) :
    Evolves Panel.Alike a.console (a.run events).console := by
  induction events generalizing a with
  | nil => exact refl_of _ a.console
  | cons event rest ih => exact trans_of _ (a.alike_perform event) (ih (a.perform event))

/-- **An interaction with the page saves every form, and a save that fails does not stop the others.** In any run
of a console: a trigger that saves nothing is refused, and nothing is changed. With any other one, a form with
content whose panel is mounted and whose save succeeds is stored under its key, and the panel knows; where there
is no form, the panel is unmounted, the value is empty or the save fails, entry and panel are as before, and so
are all other entries. Nothing else of a panel is changed. If it depends on the key alone which saves fail, then
those under the other keys succeed. What is stored is read again as the value that it was, as long as the values
that are set can be stored. -/
theorem interaction_saves_each_form {path : String} {gateway : Remote.Gateway}
    (made : make path verbs single gateway = .ok console) (store : Fallible) (events : List (Event Fallible))
    (trigger : String) :
    let a := (fresh console store).run events
    (trigger ∉ Store.saveTriggers →
      a.console.notifyAll a.store trigger = .error ⟨trigger⟩ ∧ a.perform (.notifyAll trigger) = a) ∧
    (trigger ∈ Store.saveTriggers → ∃ panels last,
      a.console.notifyAll a.store trigger = .ok ({ a.console with panels }, last) ∧
      a.perform (.notifyAll trigger) = { a with console := { a.console with panels }, store := last } ∧
      panels.length = a.console.panels.length ∧
      (∀ index panel, a.console.panels[index]? = some panel → ∃ after, panels[index]? = some after ∧
        Panel.Interacted a.store (storeAt a.store a.console.panels index) last panel after) ∧
      ∀ key, (∀ panel ∈ a.console.panels, panel.key ≠ key) → last.raw? key = a.store.raw? key) ∧
    (∀ failing : String → Bool, (∀ s key value, a.store.fails s key value = failing key) →
      ∀ index key value, value.isEmpty = false →
        (((storeAt a.store a.console.panels index).save key value).isOk = true ↔
          failing key = false ∧ a.store.store ≠ .database none)) ∧
    ((∀ event ∈ events, event.Within Panel.Event.Storable) →
      ∀ panel ∈ a.console.panels, ∀ form, panel.form = some form → form.value.Storable) := by
  intro a
  have carries := ((carries_fresh _ _ made store).run Panel.lasting_true fun event (_ : event ∈ events) ↦
    event.within_true).panels
  have shaped : Shaped verbs single a.console :=
    (shaped_make made).1.evolves ((fresh console store).alike_run events)
  refine ⟨fun other ↦ ?_, fun saves ↦ ?_, fun failing depends index key value content ↦ ?_, fun storable ↦ ?_⟩
  · have refused : a.console.notifyAll a.store trigger = .error ⟨trigger⟩ := if_neg other
    refine ⟨refused, ?_⟩
    rw [perform, refused]
  · have done : a.console.notifyAll a.store trigger =
        .ok ({ a.console with panels := (savePanels a.store a.console.panels).1 },
          (savePanels a.store a.console.panels).2) := if_pos saves
    have length := length_savePanels a.store a.console.panels
    refine ⟨_, _, done, ?_, length, fun index panel found ↦ ?_, fun key others ↦ ?_⟩
    · rw [perform, done]
    · exact interacted_savePanels carries shaped.nodup_keys a.store found
    · exact raw?_savePanels carries a.store others
  · have earlier : ∀ panel ∈ a.console.panels.take index, panel.Carries fun _ ↦ True :=
      fun panel mem ↦ carries panel (List.mem_of_mem_take mem)
    obtain ⟨fails, missing⟩ := alike_savePanels_store earlier a.store
    rw [Store.Fallible.isOk_save_iff content, storeAt, fails, depends, ne_eq, missing]
  · have proper := ((carries_fresh _ _ made store).run Panel.lasting_storable storable).panels
    exact fun panel mem form shown ↦ (proper panel mem form shown).1.value

/-- What is shown at a place: the key, the phase and the value of the form. -/
def shownAt? (a : Activity Fallible) (index : Nat) : Option (String × Phase × Json) :=
  a.console.panels[index]?.bind fun panel ↦ panel.form.map fun form ↦ (panel.key, panel.phase, form.value)

theorem exists_of_shownAt? {a : Activity Fallible} {index : Nat} {key : String} {phase : Phase} {value : Json}
    (seen : a.shownAt? index = some (key, phase, value)) :
    ∃ panel form, a.console.panels[index]? = some panel ∧ panel.form = some form ∧ panel.key = key ∧
      panel.phase = phase ∧ form.value = value := by
  obtain ⟨panel, found, mapped⟩ := Option.bind_eq_some_iff.mp seen
  obtain ⟨form, shown, same⟩ := Option.map_eq_some_iff.mp mapped
  cases same
  exact ⟨panel, form, found, shown, rfl, rfl, rfl⟩

/-- A store that does not save under one key. -/
def refusing : Fallible := ⟨.memory [], fun _ key _ ↦ key == "POST /a"⟩

/-- A value that is entered in two forms. -/
def entered : Json := .object [("a", .int 1)]

/-- A page with three forms. -/
def threeForms : Console :=
  ofPanels "/a" false (["POST", "PUT", "PATCH"].map fun verb ↦ Panel.make verb "/a" false) default

/-- Two of three panels are loaded, and the same value is entered in both forms. -/
def enterTwice : List (Event Fallible) :=
  let answer : Except Remote.RequestError Json := .ok (.object [("type", .text "object")])
  .start :: [0, 1].flatMap (fun index ↦ .begin index :: List.replicate 3 (.panel index (.proceed 0 answer))) ++
    [.panel 0 (.setValue entered none), .panel 1 (.setValue entered none)]

/-- The second form is saved though the save of the first one fails. -/
theorem second_form_is_saved :
    make "/a" ["post", "put", "patch"] false default = .ok threeForms ∧
      (∀ event ∈ enterTwice, event.Within Panel.Event.Storable) ∧
      let a := (fresh threeForms refusing).run enterTwice
      a.shownAt? 0 = some ("POST /a", .rendered, entered) ∧ a.shownAt? 1 = some ("PUT /a", .rendered, entered) ∧
      ∃ after last, a.console.notifyAll a.store "blur" = .ok (after, last) ∧
        last.raw? "POST /a" = none ∧ last.load "PUT /a" = entered := by
  have made : make "/a" ["post", "put", "patch"] false default = .ok threeForms := by cbv
  have digits : (Json.naturalText 1).length ≤ Json.mostIntegerDigits := by decide
  have value : entered.Storable := ⟨by decide, digits, trivial⟩
  have storable : ∀ event ∈ enterTwice, event.Within Panel.Event.Storable := by
    simp [enterTwice, Event.Within, Panel.Event.Storable, value]
  have post : ((fresh threeForms refusing).run enterTwice).shownAt? 0 = some ("POST /a", .rendered, entered) := by
    cbv
  have put : ((fresh threeForms refusing).run enterTwice).shownAt? 1 = some ("PUT /a", .rendered, entered) := by
    cbv
  have store : ((fresh threeForms refusing).run enterTwice).store = refusing := by cbv
  obtain ⟨-, saves, takes, values⟩ := interaction_saves_each_form made refusing enterTwice "blur"
  obtain ⟨panels, last, done, -, -, each, -⟩ := saves (by decide)
  have takes := takes (· == "POST /a") (by rw [store]; exact fun _ _ _ ↦ rfl)
  refine ⟨made, storable, post, put, _, last, done, ?_, ?_⟩
  · obtain ⟨panel, form, found, shown, key, -, value⟩ := exists_of_shownAt? post
    obtain ⟨after, -, interacted⟩ := each 0 panel found
    have failed := takes 0 "POST /a" entered rfl
    have passes := interacted.passed fun other there ↦ by
      obtain rfl : form = other := Option.some.inj (shown.symm.trans there)
      refine .inr (.inr (Bool.eq_false_iff.mpr fun taken ↦ ?_))
      rw [key, value, failed] at taken
      cases taken.1
    rw [← key, passes.2, store]
    rfl
  · obtain ⟨panel, form, found, shown, key, phase, value⟩ := exists_of_shownAt? put
    obtain ⟨after, -, interacted⟩ := each 1 panel found
    have taken := (takes 1 "PUT /a" entered rfl).mpr ⟨by decide, by rw [store]; simp [refusing]⟩
    rw [← key, ← value] at taken
    have saved := interacted.saved form shown (by rw [phase]; decide) (by rw [value]; rfl) taken
    rw [← key, saved.2.1 (values storable panel (List.mem_of_getElem? found) form shown), value]

end Activity

end Console

end VerbForms
