import VerbForms.Proofs.Console.Evolution
import VerbForms.Proofs.Console.Fresh

/-!
# Keys of entries

The entries of the panels that consoles of one kind (`Console.Shaped`) have for all resources. Where no
verb has a blank in it, different panels have different entries.
-/

namespace VerbForms

namespace Console

/-- The key of the entry for a verb and a path. -/
def keyOf (single : Bool) (verb path : String) : String :=
  Store.entryKey (if single then none else some verb) path

/-- Every verb of the consoles is without a blank. -/
def PlainVerbs (verbs : List String) (single : Bool) : Prop :=
  ∀ verb ∈ verbsOf verbs single, ' ' ∉ verb.toList

instance (verbs : List String) (single : Bool) : Decidable (PlainVerbs verbs single) :=
  inferInstanceAs (Decidable (∀ verb ∈ verbsOf verbs single, _))

/-- A text without a blank, a blank and another text give both texts back. -/
theorem append_blank_inj {first other : String} (plain : ' ' ∉ first.toList)
    (plainOther : ' ' ∉ other.toList) {rest last : String}
    (same : first ++ " " ++ rest = other ++ " " ++ last) : first = other ∧ rest = last := by
  have split {s t : String} (h : ' ' ∉ s.toList) :
      (s ++ " " ++ t).toList.takeWhile (· != ' ') = s.toList := by
    have each : ∀ c ∈ s.toList, (c != ' ') = true := fun c mem ↦
      bne_iff_ne.mpr fun blank ↦ h (blank ▸ mem)
    rw [String.toList_append, String.toList_append, List.append_assoc,
      List.takeWhile_append_of_pos each]
    simp
  have front : first = other :=
    String.toList_inj.mp ((split plain).symm.trans ((congrArg _ (congrArg String.toList same)).trans
      (split plainOther)))
  refine ⟨front, ?_⟩
  rw [front] at same
  have chars := congrArg String.toList same
  simp only [String.toList_append] at chars
  exact String.toList_inj.mp (List.append_cancel_left chars)

variable {verbs : List String} {single : Bool}

/-- **Different panels have different entries.** -/
theorem keyOf_inj (plain : PlainVerbs verbs single) {verb other path place : String}
    (mem : verb ∈ verbsOf verbs single) (memOther : other ∈ verbsOf verbs single)
    (same : keyOf single verb path = keyOf single other place) : verb = other ∧ path = place := by
  cases single with
  | true =>
    -- A single panel has the path as its key.
    refine ⟨?_, same⟩
    rw [verbsOf, if_pos rfl] at mem memOther
    cases named : ((verbs.map fun verb ↦ Text.upper (Text.trim verb)).filter (!·.isEmpty)).eraseDups with
    | nil =>
      rw [named] at mem
      cases mem
    | cons only rest =>
      rw [named] at mem memOther
      exact (List.mem_singleton.mp mem).trans (List.mem_singleton.mp memOther).symm
  | false =>
    have upper := upper_of_mem_verbsOf mem
    have upperOther := upper_of_mem_verbsOf memOther
    have texts : Text.upper verb ++ " " ++ path = Text.upper other ++ " " ++ place := same
    rw [upper, upperOther] at texts
    exact append_blank_inj (plain verb mem) (plain other memOther) texts

/-- The console has the panels that consoles with these verbs have. -/
structure Shaped (verbs : List String) (single : Bool) (console : Console) : Prop where
  verbs : console.panels.map Panel.verb = verbsOf verbs single
  path : ∀ panel ∈ console.panels, panel.path = console.path
  single : ∀ panel ∈ console.panels, panel.single = single

variable {console after : Console} {panel : Panel}

theorem Shaped.key (h : Shaped verbs single console) (mem : panel ∈ console.panels) :
    panel.key = keyOf single panel.verb console.path := by
  rw [← h.path panel mem, ← h.single panel mem]
  rfl

theorem Shaped.verb_mem (h : Shaped verbs single console) (mem : panel ∈ console.panels) :
    panel.verb ∈ verbsOf verbs single :=
  h.verbs ▸ List.mem_map_of_mem mem

/-- No two panels have the same verb. -/
theorem Shaped.eq_of_verb (h : Shaped verbs single console) {index place : Nat} {other : Panel}
    (found : console.panels[index]? = some panel) (there : console.panels[place]? = some other)
    (same : panel.verb = other.verb) : index = place := by
  have distinct : (console.panels.map Panel.verb).Nodup := by
    rw [h.verbs]
    exact nodup_verbsOf verbs single
  have sameVerbs : (console.panels.map Panel.verb)[index]? = (console.panels.map Panel.verb)[place]? := by
    rw [List.getElem?_map, List.getElem?_map, found, there]
    exact congrArg some same
  obtain ⟨bound, -⟩ := List.getElem?_eq_some_iff.mp found
  exact (List.getElem?_inj (by simpa using bound) distinct).mp sameVerbs

theorem Shaped.evolves (h : Shaped verbs single console) (evolves : Evolves Panel.Alike console after) :
    Shaped verbs single after := by
  have old {panel : Panel} (mem : panel ∈ after.panels) :
      ∃ before ∈ console.panels, before.Alike panel := by
    obtain ⟨index, found⟩ := List.getElem?_of_mem mem
    obtain ⟨before, there, alike⟩ := forall₂_getElem? evolves.panels found
    exact ⟨before, List.mem_of_getElem? there, alike⟩
  refine ⟨?_, fun panel mem ↦ ?_, fun panel mem ↦ ?_⟩
  · have verbs : List.Forall₂ (fun before panel ↦ panel = before) (console.panels.map Panel.verb)
        (after.panels.map Panel.verb) :=
      List.forall₂_map_right_iff.mpr (List.forall₂_map_left_iff.mpr
        (evolves.panels.imp fun _ _ alike ↦ alike.verb))
    rw [← h.verbs]
    exact (List.forall₂_eq_eq_eq ▸ verbs.flip : _ = _)
  · obtain ⟨before, there, alike⟩ := old mem
    rw [alike.path, evolves.path, h.path before there]
  · obtain ⟨before, there, alike⟩ := old mem
    rw [alike.single, h.single before there]

/-- A fresh console has its shape, and no panel of it has a form. -/
theorem shaped_make {path : String} {gateway : Remote.Gateway}
    (made : make path verbs single gateway = .ok console) :
    Shaped verbs single console ∧ console.path = path ∧
      ∀ panel ∈ console.panels, panel.form = none ∧ panel.isRendered = false := by
  have verbs_eq := verbs_make made
  rw [make_eq_ok made] at verbs_eq ⊢
  have fresh {panel : Panel}
      (mem : panel ∈ (verbsOf verbs single).map fun verb ↦ Panel.make verb path single) :
      ∃ verb, panel = Panel.make verb path single := by
    obtain ⟨verb, -, rfl⟩ := List.mem_map.mp mem
    exact ⟨verb, rfl⟩
  refine ⟨⟨verbs_eq, fun panel mem ↦ ?_, fun panel mem ↦ ?_⟩, rfl, fun panel mem ↦ ?_⟩
  · obtain ⟨verb, rfl⟩ := fresh mem
    rfl
  · obtain ⟨verb, rfl⟩ := fresh mem
    rfl
  · obtain ⟨verb, rfl⟩ := fresh mem
    exact ⟨rfl, rfl⟩

end Console

end VerbForms
