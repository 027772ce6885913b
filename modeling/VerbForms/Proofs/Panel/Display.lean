import VerbForms.Proofs.Panel.Loading
import VerbForms.Proofs.Panel.Submitting

/-!
# Panels on display

What the loads, the submissions and the form of a panel do by themselves (`Event.isOwn`), and not the
console. They never make the panel visible; and they take a form away or bring one only while a load is
under way for a panel that has none (`Orderly.display`).
-/

namespace VerbForms

namespace Panel

variable {σ : Type} {panel after : Panel}

theorem Event.foreign_of_isOwn {event : Event σ} (own : event.isOwn = true) :
    event.isLoad = false ∧ event.isReport = false := by
  cases event <;> simp_all [Event.isOwn, Event.isLoad, Event.isReport]

/-- A panel that has the same verb and is shown or not as before. -/
structure Quiet (panel after : Panel) : Prop where
  verb : after.verb = panel.verb
  visible : after.visible = panel.visible
  isRendered : after.isRendered = panel.isRendered

theorem Quiet.refl (panel : Panel) : Quiet panel panel := ⟨rfl, rfl, rfl⟩

namespace Activity

variable {a b : Activity σ}

/-- While a load is under way, the panel has no form. -/
theorem Orderly.loading (h : Orderly a) {load : Nat} {stage : LoadStage}
    (found : a.loads[load]? = some stage) : a.loads ≠ [] ∧ a.panel.isRendered = false := by
  have mem := List.mem_of_getElem? found
  exact ⟨List.ne_nil_of_mem mem, (h.fits stage mem).isRendered⟩

variable [EntryStore σ] {event : Event σ}

/-- A load that begins leaves the panel as it is. -/
theorem panel_load (a : Activity σ) : (a.perform .load).panel = a.panel := by
  rw [Activity.perform]
  split <;> rfl

theorem quiet_keep (a : Activity σ) (emission : Form.Live → Form.Emission) :
    Quiet a.panel (a.keep (a.panel.form.map fun form ↦
      a.panel.afterEmission a.store (emission form))).panel := by
  obtain ⟨state, same⟩ := a.panel_keep emission
  rw [same]
  exact ⟨rfl, rfl, rfl⟩

theorem quiet_answer (h : Orderly a) (underWay : a.sending ≠ 0)
    (answer : Except Remote.RequestError Json) : Quiet a.panel (a.perform (.answer answer)).panel := by
  obtain ⟨-, -, ⟨-, same⟩ | ⟨busy, response, same⟩⟩ := h.answered underWay answer
  · rw [same]
    exact .refl _
  · rw [same]
    exact ⟨rfl, rfl, by simp [isRendered, busy]⟩

/-- What happens to a panel by itself leaves it on display as it is, unless a load is under way; the panel
then had no form, and it does not get visible. -/
theorem Orderly.display (h : Orderly a) (step : Step a event b) (own : event.isOwn = true) :
    Quiet a.panel b.panel ∨
      a.loads ≠ [] ∧ a.panel.isRendered = false ∧ Remains a.panel b.panel := by
  cases step with
  | idle => exact .inl (.refl _)
  | @proceed load stage found answer =>
    obtain ⟨going, hidden⟩ := h.loading found
    rw [panel_setLoad]
    exact .inr ⟨going, hidden, remains_next stage a.store answer a.panel⟩
  | crash there error =>
    obtain ⟨going, hidden⟩ := h.loading (List.getElem?_eq_getElem there)
    exact .inr ⟨going, hidden, remains_endLoad a.panel error⟩
  | abandon load => exact .inl (.refl _)
  | submit rendered => exact .inl ⟨rfl, rfl, by simp [isRendered, rendered]⟩
  | answer underWay answer =>
    have quiet := quiet_answer h underWay answer
    rw [Activity.perform, if_neg underWay] at quiet
    exact .inl quiet
  | setValue value trigger => exact .inl (a.quiet_keep (·.setValue value trigger))
  | emit trigger => exact .inl (a.quiet_keep (·.emit trigger))
  | listen listener => exact .inl ⟨rfl, rfl, rfl⟩
  | notify saves =>
    obtain ⟨state, same⟩ := a.panel.saveForm_eq a.store
    rw [same]
    exact .inl ⟨rfl, rfl, rfl⟩
  | load => cases own
  | select => cases own
  | deselect => cases own
  | report => cases own
  | unmount => cases own
  | elsewhere => cases own

end Activity

end Panel

end VerbForms
