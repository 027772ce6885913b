import VerbForms.Console.Basic
import VerbForms.Proofs.Panel.Run
import VerbForms.Proofs.Store.LastSaved

/-!
# What saving a form stores

A value that is set with one of the save triggers is saved once. A form that is empty or has the value
that the store has already changes nothing when it is saved (`Panel.IsCurrent`), however often that
happens.
-/

namespace VerbForms

/-! ### Forms -/

/-- The form of a panel calls the listener for a save trigger once, and that one asks for the value to
be saved. -/
theorem Form.Live.emit_save (form : Form.Live) (listeners : form.listeners = Panel.saveListeners)
    {trigger : String} (mem : trigger ∈ Store.saveTriggers) :
    form.emit trigger = ⟨form, [.saveAsked trigger form.value], none⟩ := by
  have one : form.listenersFor trigger = [⟨trigger, [.save trigger]⟩] := by
    rw [Form.Live.listenersFor, listeners]
    rcases List.mem_cons.mp mem with rfl | later
    · rfl
    · rcases List.mem_cons.mp later with rfl | last
      · rfl
      · rw [List.mem_singleton.mp last]
        rfl
  rw [Form.Live.emit, Form.Live.mostNested, Form.Live.emitWithin, one]
  rfl

namespace Panel

variable {panel : Panel} {form : Form.Live} {store : Store} {value : Json}

/-- A value that is set is saved. -/
theorem setValue_eq (shown : panel.form = some form) (listeners : form.listeners = saveListeners)
    {trigger : String} (mem : trigger ∈ Store.saveTriggers) (store : Store) (value : Json) :
    panel.setValue store value (some trigger) =
      some (save { panel with form := some { form with value } } store value) := by
  have emission := Form.Live.emit_save { form with value } listeners mem
  rw [setValue, shown, Option.map_some, Form.Live.setValue, emission]
  rfl

/-! ### Stores -/

/-- A save of a mounted panel sets the value of its entry if there is something to save, and no other
value. -/
theorem save_loads (available : store ≠ .database none) (panel : Panel)
    (storable : value.isEmpty = false → value.Storable) :
    ∃ state next, panel.save store value = ({ panel with state }, next) ∧ next ≠ .database none ∧
      ∀ key, next.load key =
        if panel.phase ≠ .unmounted ∧ value.isEmpty = false ∧ panel.key = key then value
        else store.load key := by
  rw [save]
  split
  · next unmounted => exact ⟨panel.state, store, rfl, available, fun key ↦ by simp [unmounted]⟩
  · next mounted =>
    obtain ⟨next, saved, available, raws⟩ := Store.exists_save available panel.key value
    have loads : ∀ key, next.load key =
        if panel.phase ≠ .unmounted ∧ value.isEmpty = false ∧ panel.key = key then value
        else store.load key := by
      intro key
      rw [Store.load, raws]
      by_cases here : value.isEmpty = false ∧ panel.key = key
      · rw [if_pos here, if_pos ⟨mounted, here⟩, Store.decode, Option.map_some, Json.compact,
          Json.read_print .line (storable here.1)]
      · rw [if_neg here, if_neg fun there ↦ here there.2]
        rfl
    have saved : EntryStore.save store panel.key value = .ok next := saved
    rw [saved]
    dsimp only
    split
    · exact ⟨panel.state, next, rfl, available, loads⟩
    · exact ⟨_, next, rfl, available, loads⟩

/-- The form, if there is one, is empty or has the value that the store has for it, and it is saved as
forms are. -/
def IsCurrent (store : Store) (panel : Panel) : Prop :=
  ∀ form, panel.form = some form → form.listeners = saveListeners ∧
    (form.value.isEmpty = true ∨ form.value = store.load panel.key)

/-- A panel that is current stays so as long as its entry has the same value. -/
theorem IsCurrent.of_load {next : Store} (h : IsCurrent store panel)
    (same : next.load panel.key = store.load panel.key) : IsCurrent next panel :=
  fun form shown ↦ by rw [same]; exact h form shown

/-- A store that gives the same values. -/
def SameLoads (store next : Store) : Prop := ∀ key, next.load key = store.load key

/-- Saving a form that is current changes no value. -/
theorem saveForm_loads (available : store ≠ .database none)
    (storable : ∀ key, (store.load key).Storable) (current : IsCurrent store panel) :
    ∃ state next, panel.saveForm store = ({ panel with state }, next) ∧ next ≠ .database none ∧
      SameLoads store next := by
  rw [saveForm]
  split
  · next form shown =>
    obtain ⟨-, value⟩ := current form shown
    have content : form.value.isEmpty = false → form.value = store.load panel.key := by
      intro content
      rcases value with empty | same
      · rw [content] at empty
        cases empty
      · exact same
    obtain ⟨state, next, saved, available, loads⟩ :=
      save_loads available panel fun some ↦ content some ▸ storable panel.key
    refine ⟨state, next, saved, available, fun key ↦ ?_⟩
    rw [loads]
    split
    · next here =>
      rw [← here.2.2]
      exact content here.2.1
    · rfl
  · exact ⟨panel.state, store, rfl, available, fun _ ↦ rfl⟩

end Panel

/-- Saving forms that are current changes no value. -/
theorem Console.savePanels_loads {store : Store} (available : store ≠ .database none)
    (storable : ∀ key, (store.load key).Storable) {panels : List Panel}
    (current : ∀ panel ∈ panels, panel.IsCurrent store) :
    ∃ after next, savePanels store panels = (after, next) ∧
      List.Forall₂ (fun panel after ↦ ∃ state, after = { panel with state }) panels after ∧
      next ≠ .database none ∧ Panel.SameLoads store next := by
  induction panels generalizing store with
  | nil => exact ⟨[], store, rfl, .nil, available, fun _ ↦ rfl⟩
  | cons panel panels ih =>
    obtain ⟨state, next, saved, available, same⟩ :=
      Panel.saveForm_loads available storable (current panel List.mem_cons_self)
    obtain ⟨after, last, savedAll, steps, available, more⟩ := ih available
      (fun key ↦ by rw [same]; exact storable key)
      (fun other mem ↦ (current other (List.mem_cons_of_mem panel mem)).of_load (same other.key))
    refine ⟨_, last, ?_, .cons ⟨state, rfl⟩ steps, available, fun key ↦ (more key).trans (same key)⟩
    rw [savePanels, saved]
    dsimp only
    rw [savedAll]

end VerbForms
