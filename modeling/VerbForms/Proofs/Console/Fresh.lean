import VerbForms.Console.Basic
import VerbForms.Proofs.Text.UpperCase

/-!
# The panels of a console

A fresh console has one panel for each of its verbs, all of them hidden. As no two panels have the same
verb, the selection of a verb makes one panel visible and no other.
-/

namespace VerbForms

/-- A panel that is not visible. -/
def Panel.concealed (panel : Panel) : Panel := { panel with visible := false }

namespace Console

/-! ### Verbs -/

theorem nodup_eraseDups {α : Type} [BEq α] [LawfulBEq α] (items : List α) : items.eraseDups.Nodup := by
  cases items with
  | nil => exact List.nodup_nil
  | cons item items =>
    rw [List.eraseDups_cons, List.nodup_cons, List.mem_eraseDups]
    exact ⟨by simp, nodup_eraseDups _⟩
termination_by items.length
decreasing_by exact Nat.lt_succ_of_le (List.length_filter_le _ _)

variable {path : String} {verbs : List String} {single : Bool} {gateway : Remote.Gateway}
  {console : Console}

theorem nodup_verbsOf (verbs : List String) (single : Bool) : (verbsOf verbs single).Nodup := by
  rw [verbsOf]
  split
  · exact (List.take_sublist _ _).nodup (nodup_eraseDups _)
  · exact nodup_eraseDups _

/-- The verbs of a console are in upper case. -/
theorem upper_of_mem_verbsOf {verb : String} (mem : verb ∈ verbsOf verbs single) :
    Text.upper verb = verb := by
  have named : verb ∈ (verbs.map fun verb ↦ Text.upper (Text.trim verb)).filter (!·.isEmpty) := by
    rw [verbsOf] at mem
    split at mem
    · exact List.mem_eraseDups.mp (List.mem_of_mem_take mem)
    · exact List.mem_eraseDups.mp mem
  obtain ⟨given, -, rfl⟩ := List.mem_map.mp (List.mem_filter.mp named).1
  exact Text.upper_upper _

theorem make_eq_ok (made : make path verbs single gateway = .ok console) :
    console = ofPanels path single ((verbsOf verbs single).map fun verb ↦ .make verb path single)
      gateway := by
  rw [make] at made
  split at made
  · cases made
  · next named => exact (Except.ok.inj made).symm

/-- A fresh console has one panel for each of its verbs, in their order. -/
theorem verbs_make (made : make path verbs single gateway = .ok console) :
    console.panels.map Panel.verb = verbsOf verbs single := by
  rw [make_eq_ok made, ofPanels, List.map_map]
  exact (List.map_congr_left fun verb mem ↦ upper_of_mem_verbsOf mem).trans (List.map_id _)

/-! ### Selection -/

/-- Of panels with different verbs one has the verb of a panel. -/
theorem filter_verb_eq {panels : List Panel} (distinct : (panels.map Panel.verb).Nodup) {panel : Panel}
    (mem : panel ∈ panels) : panels.filter (·.verb == panel.verb) = [panel] := by
  induction panels with
  | nil => cases mem
  | cons first rest ih =>
    rw [List.map_cons, List.nodup_cons] at distinct
    rw [List.filter_cons]
    rcases List.mem_cons.mp mem with rfl | later
    · have none : rest.filter (·.verb == panel.verb) = [] := by
        refine List.filter_eq_nil_iff.mpr fun other mem same ↦ distinct.1 ?_
        exact List.mem_map.mpr ⟨other, mem, beq_iff_eq.mp same⟩
      rw [none, if_pos (beq_self_eq_true _)]
    · have apart : (first.verb == panel.verb) = false := by
        refine beq_eq_false_iff_ne.mpr fun same ↦ distinct.1 ?_
        exact List.mem_map.mpr ⟨panel, later, same.symm⟩
      rw [apart, ih distinct.2 later]
      rfl

/-- Hidden panels stay as they are when they are concealed. -/
theorem map_concealed {panels : List Panel} (hidden : ∀ panel ∈ panels, panel.visible = false) :
    panels.map Panel.concealed = panels := by
  refine (List.map_congr_left fun panel mem ↦ ?_).trans (List.map_id _)
  rw [Panel.concealed, ← hidden panel mem]
  rfl

/-- The selection makes panels visible or not, and changes nothing else. -/
theorem concealed_showOnly (console : Console) (verb : String) :
    (console.showOnly verb).panels.map Panel.concealed = console.panels.map Panel.concealed := by
  rw [showOnly, List.map_map]
  rfl

/-- **The first panel with a form gets visible**, no other one does, and a console without forms stays as
it is. -/
theorem selectFirst_of_hidden (hidden : ∀ panel ∈ console.panels, panel.visible = false)
    (distinct : (console.panels.map Panel.verb).Nodup) :
    console.selectFirst = { console with panels := console.selectFirst.panels } ∧
      console.selectFirst.panels.map Panel.concealed = console.panels ∧
      console.selectFirst.panels.filter (·.visible) =
        (console.selectFirst.panels.find? Panel.isRendered).toList := by
  have none : console.visiblePanel? = none :=
    List.find?_eq_none.mpr fun panel mem ↦ by simp [hidden panel mem]
  rw [selectFirst, none]
  dsimp only
  split
  · next panel found =>
    refine ⟨rfl, (concealed_showOnly _ _).trans (map_concealed hidden), ?_⟩
    have visible : console.panels.filter ((·.visible) ∘ fun other ↦
        { other with visible := other.verb == panel.verb }) = [panel] :=
      filter_verb_eq distinct (List.mem_of_find?_eq_some found)
    have rendered : console.panels.find? (Panel.isRendered ∘ fun other ↦
        { other with visible := other.verb == panel.verb }) = some panel := found
    rw [showOnly, List.filter_map, List.find?_map, visible, rendered]
    rfl
  · next formless =>
    refine ⟨rfl, map_concealed hidden, ?_⟩
    rw [formless]
    exact List.filter_eq_nil_iff.mpr fun panel mem ↦ by simp [hidden panel mem]

end Console

end VerbForms
