import VerbForms.Proofs.Panel.Run
import Mathlib.Order.Defs.Unbundled

/-!
# Loads on their own

What comes of a load that nothing interferes with. It does not change from one step of the load to the
next, so that a load whose steps lie far apart ends as one that is done at once.
-/

namespace VerbForms

namespace Panel

variable {σ : Type} {panel after last : Panel}

/-! ### What a load leaves alone -/

/-- A panel that still asks for the same things, and that is not visible if it was not. -/
structure Remains (panel after : Panel) : Prop where
  verb : after.verb = panel.verb
  path : after.path = panel.path
  single : after.single = panel.single
  hidden : panel.visible = false → after.visible = false

theorem Remains.refl (panel : Panel) : Remains panel panel := ⟨rfl, rfl, rfl, id⟩

theorem Remains.trans (h : Remains panel after) (more : Remains after last) : Remains panel last where
  verb := more.verb.trans h.verb
  path := more.path.trans h.path
  single := more.single.trans h.single
  hidden := more.hidden ∘ h.hidden

instance : IsPreorder Panel Remains where
  refl := .refl
  trans _ _ _ := .trans

theorem Remains.key (h : Remains panel after) : after.key = panel.key := by
  rw [Panel.key, Panel.key, h.single, h.verb, h.path]

theorem Remains.schemaQuery (h : Remains panel after) : after.schemaQuery = panel.schemaQuery := by
  rw [Panel.schemaQuery, Panel.schemaQuery, h.single, h.verb]

theorem remains_withdraw (panel : Panel) (phase : Phase) (problem : PanelProblem) :
    Remains panel (panel.withdraw phase problem) := by
  rw [withdraw]
  split
  · exact ⟨rfl, rfl, rfl, id⟩
  · exact ⟨rfl, rfl, rfl, fun _ ↦ rfl⟩

theorem remains_endLoad (panel : Panel) (error : Remote.RequestError) :
    Remains panel (panel.endLoad error) := by
  cases error with
  | cancelled => exact .refl panel
  | _ => exact panel.remains_withdraw _ _

theorem remains_receive (panel : Panel) (answer : Except Remote.RequestError Json) :
    Remains panel (panel.receive answer).1 := by
  unfold receive
  split
  · exact panel.remains_withdraw _ _
  · exact .refl panel
  · split
    · exact .refl panel
    · split
      · rw [receiveSchema]
        split <;> exact ⟨rfl, rfl, rfl, id⟩
      · exact panel.remains_withdraw _ _

theorem remains_attach (panel : Panel) (schema : Json) (metadata : Form.Metadata) (data : Json) :
    Remains panel (panel.attach schema metadata data) := by
  rw [attach]
  split
  · exact .refl panel
  · exact ⟨rfl, rfl, rfl, id⟩

/-! ### What a load leads to -/

/-- The phases that loads lead to. -/
def loadedPhases : List Phase := [.schemaLoaded, .rendered, .hidden, .failed]

/-- A panel that a load has led on, or left in its phase, and that has the same response. -/
structure LedOn (panel after : Panel) : Prop where
  phase : after.phase = panel.phase ∨ after.phase ∈ loadedPhases
  response : after.response = panel.response

theorem LedOn.refl (panel : Panel) : LedOn panel panel := ⟨.inl rfl, rfl⟩

theorem LedOn.trans (h : LedOn panel after) (more : LedOn after last) : LedOn panel last where
  phase := by
    rcases more.phase with same | loaded
    · rw [same]
      exact h.phase
    · exact .inr loaded
  response := more.response.trans h.response

instance : IsPreorder Panel LedOn where
  refl := .refl
  trans _ _ _ := .trans

theorem ledOn_withdraw (panel : Panel) {phase : Phase} (loaded : phase ∈ loadedPhases)
    (problem : PanelProblem) : LedOn panel (panel.withdraw phase problem) := by
  rw [withdraw]
  split
  · exact ⟨.inl rfl, rfl⟩
  · exact ⟨.inr loaded, rfl⟩

theorem ledOn_endLoad (panel : Panel) (error : Remote.RequestError) :
    LedOn panel (panel.endLoad error) := by
  cases error with
  | cancelled => exact .refl panel
  | _ => exact panel.ledOn_withdraw (by decide) _

theorem ledOn_receive (panel : Panel) (answer : Except Remote.RequestError Json) :
    LedOn panel (panel.receive answer).1 := by
  unfold receive
  split
  · exact panel.ledOn_withdraw (by decide) _
  · exact .refl panel
  · split
    · exact .refl panel
    · split
      · rw [receiveSchema]
        split <;> exact ⟨.inr (by simp [loadedPhases]), rfl⟩
      · exact panel.ledOn_withdraw (by decide) _

theorem ledOn_attach (panel : Panel) (schema : Json) (metadata : Form.Metadata) (data : Json) :
    LedOn panel (panel.attach schema metadata data) := by
  rw [attach]
  split
  · exact .refl panel
  · exact ⟨.inr (by simp [loadedPhases]), rfl⟩

/-! ### What comes of a load -/

variable [EntryStore σ] {store : σ} {answer : Except Remote.RequestError Json}

/-- The panel that has been loaded at once, with an unexpected error reported. -/
def loadedAlone (panel : Panel) (store : σ) (answer : Except Remote.RequestError Json) : Panel :=
  match panel.load store answer with
  | (panel, none) => panel
  | (panel, some error) => panel.endLoad error

/-- What comes of the rest of a load, if there is one. -/
def outcome (panel : Panel) (store : σ) (answer : Except Remote.RequestError Json) :
    Option LoadStage → Panel
  | none => panel
  | some .asking => panel.loadedAlone store answer
  | some (.reading schema metadata) =>
    panel.attach schema metadata (EntryStore.load store panel.key)
  | some (.holding schema metadata data) => panel.attach schema metadata data

section Parts

variable {r : Panel → Panel → Prop} [IsPreorder Panel r]
  (receive : ∀ (panel : Panel) (answer : Except Remote.RequestError Json), r panel (panel.receive answer).1)
  (endLoad : ∀ (panel : Panel) (error : Remote.RequestError), r panel (panel.endLoad error))
  (attach : ∀ (panel : Panel) (schema : Json) (metadata : Form.Metadata) (data : Json),
    r panel (panel.attach schema metadata data))
include receive endLoad attach

/-- What the parts of a load keep, each of its steps keeps. -/
theorem rel_next (stage : LoadStage) (store : σ) (answer : Except Remote.RequestError Json) (panel : Panel) :
    r panel (stage.next store answer panel).1 := by
  cases stage with
  | asking =>
    have received := receive panel answer
    rw [LoadStage.next]
    cases hr : panel.receive answer with
    | mk after receipt =>
      rw [hr] at received
      cases receipt with
      | crashed error => exact trans_of r received (endLoad after error)
      | _ => exact received
  | reading schema metadata => exact refl_of r panel
  | holding schema metadata data => exact attach panel schema metadata data

/-- What the parts of a load keep, a load that is done at once keeps. -/
theorem rel_loadedAlone (panel : Panel) (store : σ) (answer : Except Remote.RequestError Json) :
    r panel (panel.loadedAlone store answer) := by
  have received := receive panel answer
  rw [loadedAlone, load]
  cases hr : panel.receive answer with
  | mk after receipt =>
    rw [hr] at received
    cases receipt with
    | settled => exact received
    | crashed error => exact trans_of r received (endLoad after error)
    | prepared schema metadata => exact trans_of r received (attach after schema metadata _)

end Parts

theorem ledOn_next (stage : LoadStage) (store : σ) (answer : Except Remote.RequestError Json) (panel : Panel) :
    LedOn panel (stage.next store answer panel).1 :=
  rel_next ledOn_receive ledOn_endLoad ledOn_attach stage store answer panel

theorem remains_next (stage : LoadStage) (store : σ) (answer : Except Remote.RequestError Json)
    (panel : Panel) : Remains panel (stage.next store answer panel).1 :=
  rel_next remains_receive remains_endLoad remains_attach stage store answer panel

theorem remains_loadedAlone (panel : Panel) (store : σ) (answer : Except Remote.RequestError Json) :
    Remains panel (panel.loadedAlone store answer) :=
  rel_loadedAlone remains_receive remains_endLoad remains_attach panel store answer

/-- **A step of a load does not change what comes of it.** -/
theorem outcome_next (stage : LoadStage) :
    (stage.next store answer panel).1.outcome store answer (stage.next store answer panel).2 =
      panel.outcome store answer (some stage) := by
  cases stage with
  | asking =>
    rw [LoadStage.next, outcome, loadedAlone, load]
    cases panel.receive answer with
    | mk after receipt => cases receipt <;> rfl
  | reading schema metadata => rfl
  | holding schema metadata data => rfl

end Panel

end VerbForms
