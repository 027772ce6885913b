import VerbForms.Proofs.Console.Fresh
import VerbForms.Proofs.Panel.Display

/-!
# What is shown of the panels

A selection shows one panel and no other (`visible_showOnly`). What is shown is consistent if a visible
panel has a form and at most one is visible (`Shown`), and if a panel is visible where any has a form
(`Lit`); both depend only on the panels on display, and a selection brings them about.
-/

namespace VerbForms

/-- What the loads and submissions of a panel depend on. -/
def Panel.outline (panel : Panel) : String × Phase × Bool :=
  (panel.verb, panel.phase, panel.form.isSome)

/-- What the selection of panels depends on. -/
def Panel.display (panel : Panel) : String × Bool × Bool :=
  (panel.verb, panel.visible, panel.isRendered)

theorem Panel.isRendered_iff {panel : Panel} :
    panel.isRendered = true ↔ panel.phase = .rendered ∨ panel.phase = .submitting := by
  simp [Panel.isRendered]

theorem Panel.Quiet.display {panel after : Panel} (h : Panel.Quiet panel after) :
    after.display = panel.display := by
  rw [Panel.display, Panel.display, h.verb, h.visible, h.isRendered]

/-- A change of one item that some view of the items does not show. -/
theorem map_set_of_eq {α β : Type} (f : α → β) {items : List α} {index : Nat} {old new : α}
    (found : items[index]? = some old) (same : f new = f old) :
    (items.set index new).map f = items.map f := by
  induction items generalizing index with
  | nil => cases found
  | cons item items ih =>
    cases index with
    | zero =>
      obtain rfl := Option.some.inj found
      exact congrArg (· :: items.map f) same
    | succ index => exact congrArg (f item :: ·) (ih found)

namespace Console

variable {console after : Console} {panel : Panel} {verb shown : String}

/-! ### Selections -/

/-- Of panels with different verbs the one with a verb is found. -/
theorem find?_verb_eq (distinct : (console.panels.map Panel.verb).Nodup)
    (mem : panel ∈ console.panels) : console.panels.find? (·.verb == panel.verb) = some panel := by
  rw [← List.head?_filter, filter_verb_eq distinct mem]
  rfl

theorem mem_of_find?_verb (found : console.panels.find? (·.verb == verb) = some panel) :
    panel ∈ console.panels ∧ panel.verb = verb :=
  ⟨List.mem_of_find?_eq_some found, by simpa using List.find?_some found⟩

/-- A selection that succeeds. -/
theorem select_eq_ok_iff :
    console.select verb = .ok (after, shown) ↔
      ∃ panel, console.panels.find? (·.verb == Text.upper verb) = some panel ∧
        panel.isRendered = true ∧ after = console.showOnly panel.verb ∧ shown = panel.verb := by
  rw [select]
  constructor
  · intro selected
    split at selected
    · cases selected
    · next panel found =>
      split at selected
      · next rendered =>
        cases selected
        exact ⟨panel, found, rendered, rfl, rfl⟩
      · cases selected
  · rintro ⟨panel, found, rendered, rfl, rfl⟩
    rw [found]
    exact if_pos rendered

/-- Of panels with different verbs a selection makes one visible. -/
theorem visible_showOnly (distinct : (console.panels.map Panel.verb).Nodup)
    (mem : panel ∈ console.panels) :
    (console.showOnly panel.verb).panels.filter (·.visible) = [{ panel with visible := true }] := by
  have one : console.panels.filter ((·.visible) ∘ fun other ↦
      { other with visible := other.verb == panel.verb }) = [panel] := filter_verb_eq distinct mem
  rw [showOnly, List.filter_map, one, List.map_singleton, beq_self_eq_true]

theorem outline_showOnly (console : Console) (verb : String) :
    (console.showOnly verb).panels.map Panel.outline = console.panels.map Panel.outline := by
  rw [showOnly, List.map_map]
  rfl

/-- What the first selection does, if anything. -/
theorem selectFirst_cases (console : Console) :
    (∃ panel ∈ console.panels, panel.isRendered = true ∧
        console.selectFirst = console.showOnly panel.verb) ∨
      console.selectFirst = console ∧
        ((∃ panel ∈ console.panels, panel.isRendered = true) →
          ∃ panel ∈ console.panels, panel.visible = true) := by
  rw [selectFirst]
  split
  · next panel found =>
    exact .inr ⟨rfl, fun _ ↦ ⟨panel, List.mem_of_find?_eq_some found, List.find?_some found⟩⟩
  · split
    · next panel found =>
      exact .inl ⟨panel, List.mem_of_find?_eq_some found, List.find?_some found, rfl⟩
    · next formless =>
      refine .inr ⟨rfl, fun there ↦ ?_⟩
      obtain ⟨panel, mem, rendered⟩ := there
      exact absurd rendered (List.find?_eq_none.mp formless panel mem)

/-! ### Saves of all panels -/

theorem map_savePanels {σ β : Type} [EntryStore σ] (f : Panel → β)
    (same : ∀ panel state, f { panel with state } = f panel) (store : σ) (panels : List Panel) :
    (savePanels store panels).1.map f = panels.map f := by
  induction panels generalizing store with
  | nil => rfl
  | cons panel rest ih =>
    obtain ⟨state, saved⟩ := panel.saveForm_eq store
    rw [savePanels, List.map_cons, List.map_cons, ih, saved, same]

/-! ### What is shown -/

/-- A visible panel has a form to show, and at most one panel is visible. -/
structure Shown (console : Console) : Prop where
  rendered : ∀ panel ∈ console.panels, panel.visible = true → panel.isRendered = true
  single : console.panels.countP (·.visible) ≤ 1

/-- A panel is visible if any has a form to show. -/
def Lit (console : Console) : Prop :=
  (∃ panel ∈ console.panels, panel.isRendered = true) →
    ∃ panel ∈ console.panels, panel.visible = true

section Display

variable (same : after.panels.map Panel.display = console.panels.map Panel.display)
include same

/-- Panels on display on one side are so on the other side. -/
theorem exists_display {panel : Panel} (mem : panel ∈ after.panels) :
    ∃ other ∈ console.panels, other.visible = panel.visible ∧
      other.isRendered = panel.isRendered := by
  have mapped : panel.display ∈ console.panels.map Panel.display :=
    same ▸ List.mem_map_of_mem mem
  obtain ⟨other, mem, alike⟩ := List.mem_map.mp mapped
  simp only [Panel.display, Prod.mk.injEq] at alike
  exact ⟨other, mem, alike.2⟩

theorem Shown.of_display (h : Shown console) : Shown after where
  rendered panel mem visible := by
    obtain ⟨other, mem, sameVisible, sameRendered⟩ := exists_display same mem
    rw [← sameRendered]
    exact h.rendered other mem (sameVisible.trans visible)
  single := by
    have counts (panels : List Panel) : panels.countP (·.visible) =
        (panels.map Panel.display).countP (·.2.1) := by
      rw [List.countP_map]
      rfl
    rw [counts, same, ← counts]
    exact h.single

theorem Lit.of_display (h : Lit console) : Lit after := by
  rintro ⟨panel, mem, rendered⟩
  obtain ⟨other, mem, -, sameRendered⟩ := exists_display same mem
  obtain ⟨shown, mem, visible⟩ := h ⟨other, mem, sameRendered.trans rendered⟩
  obtain ⟨panel, mem, sameVisible, -⟩ := exists_display same.symm mem
  exact ⟨panel, mem, sameVisible.trans visible⟩

end Display

theorem shown_showOnly (distinct : (console.panels.map Panel.verb).Nodup)
    (mem : panel ∈ console.panels) (rendered : panel.isRendered = true) :
    Shown (console.showOnly panel.verb) ∧ Lit (console.showOnly panel.verb) := by
  have one := visible_showOnly distinct mem
  refine ⟨⟨fun other mem visible ↦ ?_, ?_⟩, fun _ ↦ ?_⟩
  · have isOne := List.mem_filter.mpr ⟨mem, visible⟩
    rw [one, List.mem_singleton] at isOne
    rw [isOne]
    exact rendered
  · rw [List.countP_eq_length_filter, one]
    exact Nat.le_refl 1
  · have isOne : { panel with visible := true } ∈
        (console.showOnly panel.verb).panels.filter (·.visible) := by simp [one]
    exact ⟨_, (List.mem_filter.mp isOne).1, rfl⟩

/-- A panel without a form may change as long as it does not get visible. -/
theorem Shown.set (h : Shown console) {index : Nat} (found : console.panels[index]? = some panel)
    (hidden : panel.isRendered = false) {new : Panel} (invisible : panel.visible = false → new.visible = false) :
    Shown (console.setPanel index new) := by
  have dark : new.visible = false := by
    refine invisible (Bool.eq_false_iff.mpr fun visible ↦ ?_)
    rw [h.rendered panel (List.mem_of_getElem? found) visible] at hidden
    cases hidden
  refine ⟨fun other mem visible ↦ ?_, ?_⟩
  · rcases List.mem_or_eq_of_mem_set mem with old | rfl
    · exact h.rendered other old visible
    · rw [dark] at visible
      cases visible
  · obtain ⟨bound, -⟩ := List.getElem?_eq_some_iff.mp found
    rw [setPanel, List.countP_set bound, dark]
    have := h.single
    simp
    omega

end Console

end VerbForms
