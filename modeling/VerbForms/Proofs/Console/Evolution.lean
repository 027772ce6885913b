import VerbForms.Console.Basic
import VerbForms.Proofs.Panel.Display
import Mathlib.Data.List.Forall2

/-!
# How panels evolve

Whatever happens to a panel that is not saved or set, it keeps its form, or it gets a fresh one with the
value that the store has for it (`Panel.Follows`). Nothing but the load of a panel renders it: all other
steps leave it as it is in this respect (`Panel.Still`).
-/

namespace VerbForms

/-! ### Panels -/

namespace Panel

variable {store : Store} {panel after last : Panel}

/-- Two states of one panel. -/
structure Alike (panel after : Panel) : Prop where
  verb : after.verb = panel.verb
  path : after.path = panel.path
  single : after.single = panel.single

theorem Alike.key (h : Alike panel after) : after.key = panel.key := by
  rw [Panel.key, Panel.key, h.single, h.verb, h.path]

theorem Alike.trans (h : Alike panel after) (more : Alike after last) : Alike panel last :=
  ⟨more.verb.trans h.verb, more.path.trans h.path, more.single.trans h.single⟩

/-- The panel is rendered only if it was. -/
structure Kept (panel after : Panel) : Prop extends Alike panel after where
  isRendered : after.isRendered = true → panel.isRendered = true

theorem Kept.trans (h : Kept panel after) (more : Kept after last) : Kept panel last :=
  ⟨h.toAlike.trans more.toAlike, h.isRendered ∘ more.isRendered⟩

instance : IsPreorder Panel Kept where
  refl _ := ⟨⟨rfl, rfl, rfl⟩, id⟩
  trans _ _ _ := .trans

/-- The panel has the form that it had, and it is rendered only if it was. -/
structure Still (panel after : Panel) : Prop extends Kept panel after where
  form : after.form = panel.form
  state : after.state = panel.state

theorem Still.refl (panel : Panel) : Still panel panel := ⟨⟨⟨rfl, rfl, rfl⟩, id⟩, rfl, rfl⟩

theorem Still.trans (h : Still panel after) (more : Still after last) : Still panel last :=
  ⟨h.toKept.trans more.toKept, more.form.trans h.form, more.state.trans h.state⟩

instance : IsPreorder Panel Still where
  refl := .refl
  trans _ _ _ := .trans

/-- The panel has a fresh form with a value. -/
def Shows (panel : Panel) (data : Json) : Prop :=
  ∃ schema metadata, panel.form = some (formOf schema metadata data) ∧
    panel.state = some ⟨schema, metadata, data⟩

theorem Still.shows (h : Still panel after) {data : Json} (shows : panel.Shows data) :
    after.Shows data := by
  obtain ⟨schema, metadata, form, state⟩ := shows
  exact ⟨schema, metadata, h.form.trans form, h.state.trans state⟩

/-- The panel has the form that it had, or a fresh one with the value from the store. -/
inductive Follows (store : Store) (panel after : Panel) : Prop where
  | still : Still panel after → Follows store panel after
  | attached : Alike panel after → after.Shows (store.load panel.key) → Follows store panel after

theorem Follows.alike (h : Follows store panel after) : Alike panel after := by
  cases h with
  | still still => exact still.toAlike
  | attached alike _ => exact alike

theorem Follows.refl (store : Store) (panel : Panel) : Follows store panel panel :=
  .still (.refl panel)

theorem Follows.trans (h : Follows store panel after) (more : Follows store after last) :
    Follows store panel last := by
  have alike := h.alike.trans more.alike
  cases more with
  | attached _ shows => exact .attached alike (h.alike.key ▸ shows)
  | still still =>
    cases h with
    | still before => exact .still (before.trans still)
    | attached _ shows => exact .attached alike (still.shows shows)

instance (store : Store) : IsPreorder Panel (Follows store) where
  refl := .refl store
  trans _ _ _ := .trans

/-! #### What happens to a panel -/

theorem still_withdraw {phase : Phase} (bare : phase = .hidden ∨ phase = .failed)
    (panel : Panel) (problem : PanelProblem) : Still panel (panel.withdraw phase problem) := by
  rw [withdraw]
  split
  · exact ⟨⟨⟨rfl, rfl, rfl⟩, id⟩, rfl, rfl⟩
  · refine ⟨⟨⟨rfl, rfl, rfl⟩, fun shown ↦ ?_⟩, rfl, rfl⟩
    rcases bare with rfl | rfl <;> cases shown

theorem still_receive (panel : Panel) (answer : Except Remote.RequestError Json) :
    Still panel (panel.receive answer).1 := by
  unfold receive
  split
  · exact still_withdraw (.inl rfl) panel _
  · exact .refl panel
  · split
    · exact .refl panel
    · split
      · rw [receiveSchema]
        split
        · exact ⟨⟨⟨rfl, rfl, rfl⟩, fun shown ↦ by cases shown⟩, rfl, rfl⟩
        · exact ⟨⟨⟨rfl, rfl, rfl⟩, fun shown ↦ by cases shown⟩, rfl, rfl⟩
      · exact still_withdraw (.inl rfl) panel _

theorem still_unmount (panel : Panel) : Still panel panel.unmount :=
  ⟨⟨⟨rfl, rfl, rfl⟩, fun shown ↦ by cases shown⟩, rfl, rfl⟩

theorem follows_attach (store : Store) (panel : Panel) (schema : Json) (metadata : Form.Metadata) :
    Follows store panel (panel.attach schema metadata (store.load panel.key)) := by
  rw [attach]
  split
  · exact .refl store panel
  · exact .attached ⟨rfl, rfl, rfl⟩ ⟨schema, metadata, rfl, rfl⟩

theorem still_freed (panel : Panel) : Still panel panel.freed := by
  rw [freed]
  split
  · next busy => exact ⟨⟨⟨rfl, rfl, rfl⟩, fun _ ↦ by rw [Panel.isRendered, busy]; rfl⟩, rfl, rfl⟩
  · exact .refl panel

theorem still_endSubmit (panel : Panel) (answer : Except Remote.RequestError Json) :
    Still panel (panel.endSubmit answer).panel := by
  unfold endSubmit
  split
  · exact panel.still_freed
  · exact panel.still_freed
  · split
    · exact .refl panel
    · exact panel.still_freed.trans ⟨⟨⟨rfl, rfl, rfl⟩, id⟩, rfl, rfl⟩

end Panel

/-! ### Consoles -/

section

variable {α : Type} {r : α → α → Prop} [IsPreorder α r]

theorem forall₂_trans {first second third : List α} (h : List.Forall₂ r first second)
    (more : List.Forall₂ r second third) : List.Forall₂ r first third := by
  induction h generalizing third with
  | nil => exact more
  | cons head _ ih =>
    cases more with
    | cons next rest => exact .cons (trans_of r head next) (ih rest)

/-- A change in one place. -/
theorem forall₂_modify (items : List α) (index : Nat) {f : α → α}
    (step : ∀ a, items[index]? = some a → r a (f a)) : List.Forall₂ r items (items.modify index f) := by
  induction items generalizing index with
  | nil => cases index <;> exact .nil
  | cons item items ih =>
    cases index with
    | zero => exact .cons (step item rfl) (List.forall₂_refl items)
    | succ index => exact .cons (refl_of r item) (ih index step)

omit [IsPreorder α r] in
/-- What stands in a place has come from what stood there. -/
theorem forall₂_getElem? {before after : List α} (h : List.Forall₂ r before after) {index : Nat} {b : α}
    (found : after[index]? = some b) : ∃ a, before[index]? = some a ∧ r a b := by
  induction h generalizing index with
  | nil => cases found
  | cons head _ ih =>
    cases index with
    | zero => exact ⟨_, rfl, Option.some.inj found ▸ head⟩
    | succ index => exact ih found

omit [IsPreorder α r] in
/-- What stood in a place has come to something. -/
theorem forall₂_getElem?_left {before after : List α} (h : List.Forall₂ r before after) {index : Nat} {a : α}
    (found : before[index]? = some a) : ∃ b, after[index]? = some b ∧ r a b := by
  obtain ⟨b, same, step⟩ := forall₂_getElem? h.flip found
  exact ⟨b, same, step⟩

end

namespace Console

variable {r : Panel → Panel → Prop} {console after last : Console}

/-- The console has the panels that it had, each of them as far as the relation allows. -/
structure Evolves (r : Panel → Panel → Prop) (console after : Console) : Prop where
  path : after.path = console.path
  panels : List.Forall₂ r console.panels after.panels

theorem Evolves.mono {s : Panel → Panel → Prop} (weaker : ∀ panel after, r panel after → s panel after)
    (h : Evolves r console after) : Evolves s console after :=
  ⟨h.path, h.panels.imp fun panel after ↦ weaker panel after⟩

variable [IsPreorder Panel r]

instance : IsPreorder Console (Evolves r) where
  refl console := ⟨rfl, List.forall₂_refl console.panels⟩
  trans _ _ _ h more := ⟨more.path.trans h.path, forall₂_trans h.panels more.panels⟩

theorem evolves_of_panels (path : after.path = console.path) (panels : after.panels = console.panels) :
    Evolves r console after :=
  ⟨path, by rw [panels]; exact List.forall₂_refl console.panels⟩

omit [IsPreorder Panel r] in
theorem evolves_of_map {f : Panel → Panel} (step : ∀ panel, r panel (f panel))
    (path : after.path = console.path) (panels : after.panels = console.panels.map f) :
    Evolves r console after := by
  refine ⟨path, ?_⟩
  rw [panels, List.forall₂_map_right_iff]
  exact List.forall₂_same.mpr fun panel _ ↦ step panel

theorem evolves_setPanel (console : Console) (index : Nat) {panel : Panel}
    (step : ∀ old, console.panels[index]? = some old → r old panel) :
    Evolves r console (console.setPanel index panel) := by
  refine ⟨rfl, ?_⟩
  rw [setPanel, List.set_eq_modify]
  exact forall₂_modify console.panels index step

theorem still_showOnly (console : Console) (verb : String) :
    Evolves Panel.Still console (console.showOnly verb) := by
  have step (panel : Panel) : Panel.Still panel { panel with visible := panel.verb == verb } :=
    ⟨⟨⟨rfl, rfl, rfl⟩, id⟩, rfl, rfl⟩
  exact evolves_of_map step rfl rfl

theorem still_selectFirst (console : Console) : Evolves Panel.Still console console.selectFirst := by
  rw [selectFirst]
  split
  · exact refl_of _ console
  · split
    · exact console.still_showOnly _
    · exact refl_of _ console

theorem still_close (console : Console) : Evolves Panel.Still console console.close :=
  evolves_of_map Panel.still_unmount rfl rfl

theorem still_receiveResource (console : Console) (answer : Except Remote.RequestError Json) :
    Evolves Panel.Still console (console.receiveResource answer).1 := by
  unfold receiveResource
  split <;> exact evolves_of_panels rfl rfl

end Console

end VerbForms
