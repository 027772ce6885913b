import VerbForms.Form.Copy
import VerbForms.Proofs.Json.RoundTrip

/-!
# Copies are all or nothing

A copy is decided by the first visible panel alone. If it gives a value, the event carries the text of the
value and its default is prevented (`Exports`); otherwise the event stays as it was, also where an error leaves
the copy (`copy_all_or_nothing`).
-/

namespace VerbForms.Form

variable {panels : List Exhibit} {panel : Exhibit}

/-- The panel is visible, and none of those before it is. -/
def FirstVisible (panels : List Exhibit) (panel : Exhibit) : Prop :=
  ∃ front rest, panels = front ++ panel :: rest ∧ (∀ other ∈ front, other.visible = false) ∧
    panel.visible = true

theorem visiblePanel?_eq_some_iff : visiblePanel? panels = some panel ↔ FirstVisible panels panel := by
  rw [visiblePanel?, List.find?_eq_some_iff_append, FirstVisible]
  constructor
  · rintro ⟨visible, front, rest, split, hidden⟩
    exact ⟨front, rest, split, fun other mem ↦ by simpa using hidden other mem, visible⟩
  · rintro ⟨front, rest, split, hidden, visible⟩
    exact ⟨visible, front, rest, split, fun other mem ↦ by simpa using hidden other mem⟩

/-- The event has got one text and no other, and its default is prevented. -/
structure Exports (mime text : String) (event after : CopyEvent) : Prop where
  prevented : after.prevented = true
  carried : Assoc.get? after.data mime = some text
  others : ∀ other, mime ≠ other → Assoc.get? after.data other = Assoc.get? event.data other
  alone : event.data = [] → after.data = [(mime, text)]

theorem exports_put (mime text : String) (event : CopyEvent) :
    Exports mime text event ⟨true, Assoc.put event.data mime text⟩ :=
  ⟨rfl, Assoc.get?_put_self _ _ _, fun _ apart ↦ Assoc.get?_put_of_ne apart _ _, fun none ↦ by rw [none]; rfl⟩

/-- What the first visible panel gives. -/
theorem offer_eq_some_iff {offer : Offer} : (visiblePanel? panels).map Exhibit.offer = some offer ↔
    ∃ panel, FirstVisible panels panel ∧ panel.offer = offer := by
  simp only [Option.map_eq_some_iff, visiblePanel?_eq_some_iff]

/-- **A copy is all or nothing.** Whatever the panels show and give, a copy is handled exactly if there is a
visible panel and the first of them gives a value. Then the default of the event is prevented, and the event
carries one more text, which is read as that value. In every other case the event stays as it was, also where
the error of the first visible panel leaves the copy. -/
theorem copy_all_or_nothing (mime : String) (panels : List Exhibit) (event : CopyEvent) :
    ((copy mime panels event).1 = .ok true ↔
        ∃ panel value, FirstVisible panels panel ∧ panel.offer = .value value) ∧
      (∀ panel value, FirstVisible panels panel → panel.offer = .value value → ∃ text,
        Exports mime text event (copy mime panels event).2 ∧ (value.Storable → Json.read text = .ok value)) ∧
      ((copy mime panels event).1 ≠ .ok true → (copy mime panels event).2 = event) ∧
      ∀ crash, (copy mime panels event).1 = .error crash ↔
        ∃ panel, FirstVisible panels panel ∧ panel.offer = .crashed crash.kind crash.description := by
  have handled : (∃ panel value, FirstVisible panels panel ∧ panel.offer = .value value) ↔
      ∃ value, (visiblePanel? panels).map Exhibit.offer = some (.value value) := by
    simp only [offer_eq_some_iff]
    exact exists_comm
  have exports (panel : Exhibit) (value : Json) (first : FirstVisible panels panel)
      (offer : panel.offer = .value value) : ∃ text,
        Exports mime text event (copy mime panels event).2 ∧ (value.Storable → Json.read text = .ok value) := by
    rw [copy, offer_eq_some_iff.mpr ⟨panel, first, offer⟩]
    exact ⟨value.compact, exports_put mime _ event, Json.read_print .line⟩
  rw [handled]
  refine ⟨?_, exports, ?_, fun crash ↦ ?_⟩
  · rw [copy]
    split
    · next value given => exact iff_of_true rfl ⟨value, given⟩
    · next given => exact iff_of_false nofun (by simp [given])
    · next other _ => exact iff_of_false nofun fun ⟨value, given⟩ ↦ other value given
  · rw [copy]
    split
    · exact fun unhandled ↦ absurd rfl unhandled
    · exact fun _ ↦ rfl
    · exact fun _ ↦ rfl
  · rw [← offer_eq_some_iff, copy]
    split
    · next given => exact iff_of_false nofun (by simp [given])
    · next kind description given =>
      rw [given]
      constructor
      · rintro ⟨⟩
        rfl
      · rintro ⟨⟩
        rfl
    · next _ other => exact iff_of_false nofun fun given ↦ other _ _ given

/-- A panel behind a hidden one and before one that would fail is exported. -/
theorem second_panel_is_exported : ∃ panels : List Exhibit, ∃ value : Json, ∃ text : String,
    panels.map Exhibit.visible = [false, true, true] ∧ (copy copyMime panels .fresh).1 = .ok true ∧
      (copy copyMime panels .fresh).2.data = [(copyMime, text)] ∧ Json.read text = .ok value := by
  generalize value_eq : Json.object [("a", .array [.int 1, .null])] = value
  have readable : value.Storable := by
    subst value_eq
    simp [Json.Storable, Json.StorableMembers, Json.StorableItems, Assoc.keys]
    decide
  generalize panels_eq : [Exhibit.mk "GET" false (.value .null), ⟨"POST", true, .value value⟩,
    ⟨"PUT", true, .crashed "KeyError" "a"⟩] = panels
  have first : FirstVisible panels ⟨"POST", true, .value value⟩ := by
    subst panels_eq
    exact ⟨[⟨"GET", false, .value .null⟩], _, rfl, by simp, rfl⟩
  obtain ⟨handled, exported, -⟩ := copy_all_or_nothing copyMime panels .fresh
  obtain ⟨text, exports, reads⟩ := exported _ _ first rfl
  exact ⟨panels, value, text, by rw [← panels_eq]; rfl, handled.mpr ⟨_, _, first, rfl⟩, exports.alone rfl,
    reads readable⟩

end VerbForms.Form
