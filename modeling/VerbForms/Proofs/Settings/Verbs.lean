import VerbForms.Proofs.Host.Startup
import VerbForms.Proofs.Text.Parts

/-!
# Verbs and panels

A list with commas names verbs, which are read once more by the console that is made for them and once more
when a panel is looked up. All three readings agree: a verb that has been read is not changed by another
reading (`IsVerb`), so that a console has one panel for each verb that is set
(`Settings.one_panel_for_each_verb`).
-/

namespace VerbForms

/-! ### First occurrences -/

/-- A list has the items of another one, each once and in the order in which they come first there. -/
structure FirstOccurrences {α : Type} [BEq α] (items found : List α) : Prop where
  mem_iff : ∀ item, item ∈ found ↔ item ∈ items
  ordered : found.Pairwise fun item next ↦ items.idxOf item < items.idxOf next

section FirstOccurrences

variable {α : Type} [BEq α] [LawfulBEq α] {items : List α} {item next : α}

theorem idxOf_cons_lt (first : α) (apart : item ≠ first) (apart' : next ≠ first)
    (before : items.idxOf item < items.idxOf next) :
    (first :: items).idxOf item < (first :: items).idxOf next := by
  rw [List.idxOf_cons_ne _ apart.symm, List.idxOf_cons_ne _ apart'.symm]
  exact Nat.succ_lt_succ before

/-- Items that are kept come in the order in which they came before. -/
theorem idxOf_lt_of_filter {test : α → Bool} (kept : test item = true) (kept' : test next = true)
    (before : (items.filter test).idxOf item < (items.filter test).idxOf next) :
    items.idxOf item < items.idxOf next := by
  induction items with
  | nil => exact before
  | cons first items ih =>
    rw [List.filter_cons] at before
    by_cases here : item = first
    · subst here
      rw [if_pos kept, List.idxOf_cons_self] at before
      have apart : next ≠ item := by
        rintro rfl
        rw [List.idxOf_cons_self] at before
        exact absurd before (Nat.lt_irrefl 0)
      rw [List.idxOf_cons_self, List.idxOf_cons_ne _ apart.symm]
      exact Nat.succ_pos _
    · by_cases there : next = first
      · subst there
        rw [if_pos kept', List.idxOf_cons_self] at before
        exact absurd before (Nat.not_lt_zero _)
      · refine idxOf_cons_lt first here there (ih ?_)
        split at before
        · rw [List.idxOf_cons_ne _ (Ne.symm here), List.idxOf_cons_ne _ (Ne.symm there)] at before
          exact Nat.lt_of_succ_lt_succ before
        · exact before

theorem firstOccurrences_eraseDups (items : List α) : FirstOccurrences items items.eraseDups := by
  refine ⟨fun _ ↦ List.mem_eraseDups, ?_⟩
  cases items with
  | nil => exact List.Pairwise.nil
  | cons first items =>
    have kept {item : α} (mem : item ∈ (items.filter fun item ↦ !item == first).eraseDups) : item ≠ first := by
      have test := (List.mem_filter.mp (List.mem_eraseDups.mp mem)).2
      simpa using test
    rw [List.eraseDups_cons]
    refine List.pairwise_cons.mpr ⟨fun item mem ↦ ?_, ?_⟩
    · rw [List.idxOf_cons_self, List.idxOf_cons_ne _ (kept mem).symm]
      exact Nat.succ_pos _
    · refine (firstOccurrences_eraseDups _).ordered.imp_of_mem fun mem mem' before ↦ ?_
      refine idxOf_cons_lt first (kept mem) (kept mem') ?_
      exact idxOf_lt_of_filter (by simpa using kept mem) (by simpa using kept mem') before
termination_by items.length
decreasing_by exact Nat.lt_succ_of_le (List.length_filter_le _ _)

/-- A list without repetitions stays as it is. -/
theorem eraseDups_of_nodup (distinct : items.Nodup) : items.eraseDups = items := by
  induction items with
  | nil => rfl
  | cons first items ih =>
    obtain ⟨apart, distinct⟩ := List.nodup_cons.mp distinct
    have same : items.filter (fun item ↦ !item == first) = items := by
      refine List.filter_eq_self.mpr fun item mem ↦ ?_
      have other : item ≠ first := fun same ↦ apart (same ▸ mem)
      simpa using other
    rw [List.eraseDups_cons, same, ih distinct]

end FirstOccurrences

/-! ### Verbs -/

/-- A verb that has been read: another reading does not change it. -/
structure IsVerb (verb : String) : Prop where
  some : verb ≠ ""
  same : Text.upper (Text.trim verb) = verb

theorem isVerb_upper_trim {text : String} (some : Text.upper (Text.trim text) ≠ "") :
    IsVerb (Text.upper (Text.trim text)) :=
  ⟨some, by rw [Text.trim_upper_trim, Text.upper_upper]⟩

theorem IsVerb.upper {verb : String} (h : IsVerb verb) : Text.upper verb = verb := by
  rw [← h.same, Text.upper_upper]

/-- The console reads verbs that have been read as they are. -/
theorem Console.verbsOf_of_isVerb {verbs : List String} (read : ∀ verb ∈ verbs, IsVerb verb)
    (distinct : verbs.Nodup) {single : Bool} (one : single = true → verbs.length ≤ 1) :
    verbsOf verbs single = verbs := by
  have same : (verbs.map fun verb ↦ Text.upper (Text.trim verb)) = verbs :=
    (List.map_congr_left fun verb mem ↦ (read verb mem).same).trans (List.map_id _)
  have full : verbs.filter (!·.isEmpty) = verbs :=
    List.filter_eq_self.mpr fun verb mem ↦ by simpa using (read verb mem).some
  rw [verbsOf, same, full, eraseDups_of_nodup distinct]
  split
  · next only => exact List.take_of_length_le (one only)
  · rfl

namespace Settings

variable {settings : Settings} {verb : String}

/-- The verbs that a list with commas names: its parts that are not blank, without blanks at their ends and
in upper case. -/
def named (s : String) : List String :=
  (((Text.splitAt ',' s.toList).map String.ofList).filter (Text.trim · != "")).map fun part ↦
    Text.upper (Text.trim part)

theorem upper_trim_ne_empty_iff (s : String) : Text.upper (Text.trim s) ≠ "" ↔ Text.trim s ≠ "" := by
  constructor
  · intro some none
    rw [none] at some
    exact some rfl
  · exact fun some ↦ (Text.trim_ne_empty_iff.mp some).trim.upper.ne_empty

theorem parsedVerbs_eq (settings : Settings) : settings.parsedVerbs = (named settings.verbs).eraseDups := by
  have tests : ((fun verb : String ↦ !verb.isEmpty) ∘ fun part ↦ Text.upper (Text.trim part)) =
      fun part ↦ Text.trim part != "" := by
    funext part
    have full := upper_trim_ne_empty_iff part
    rw [Bool.eq_iff_iff]
    simpa using full
  rw [parsedVerbs, verbsOf, named, ← tests, ← List.filter_map, List.map_map]
  rfl

theorem isVerb_of_mem_parsedVerbs (mem : verb ∈ settings.parsedVerbs) : IsVerb verb := by
  rw [parsedVerbs_eq, List.mem_eraseDups] at mem
  obtain ⟨part, kept, rfl⟩ := List.mem_map.mp mem
  refine isVerb_upper_trim ((upper_trim_ne_empty_iff part).mpr ?_)
  simpa using (List.mem_filter.mp kept).2

/-- No verb of a list with commas has a comma. -/
theorem comma_not_mem_of_mem_parsedVerbs (mem : verb ∈ settings.parsedVerbs) : ',' ∉ verb.toList := by
  rw [parsedVerbs_eq, List.mem_eraseDups] at mem
  obtain ⟨part, kept, rfl⟩ := List.mem_map.mp mem
  obtain ⟨chars, cut, rfl⟩ := List.mem_map.mp (List.mem_filter.mp kept).1
  refine Text.comma_not_mem_upper fun comma ↦ (Text.of_mem_splitAt cut).1 ?_
  rw [Text.trim, String.toList_ofList, String.toList_ofList] at comma
  exact Text.trimChars_subset _ comma

theorem nodup_parsedVerbs (settings : Settings) : settings.parsedVerbs.Nodup := Console.nodup_eraseDups _

/-- Verbs that are joined with commas are named as they are. -/
theorem named_intercalate {verbs : List String} (plain : ∀ verb ∈ verbs, ',' ∉ verb.toList)
    (read : ∀ verb ∈ verbs, IsVerb verb) : named (",".intercalate verbs) = verbs := by
  have comma : ",".toList = [','] := rfl
  by_cases none : verbs = []
  · subst none
    rfl
  · have plain : ∀ part ∈ verbs.map String.toList, ',' ∉ part := List.forall_mem_map.mpr plain
    have parts : (Text.splitAt ',' (",".intercalate verbs).toList).map String.ofList = verbs := by
      rw [String.toList_intercalate, comma, Text.splitAt_intercalate plain (by simpa using none), List.map_map]
      exact (List.map_congr_left fun verb _ ↦ String.ofList_toList).trans (List.map_id _)
    have full : verbs.filter (Text.trim · != "") = verbs := by
      refine List.filter_eq_self.mpr fun verb mem ↦ bne_iff_ne.mpr ?_
      rw [← upper_trim_ne_empty_iff, (read verb mem).same]
      exact (read verb mem).some
    rw [named, parts, full]
    exact (List.map_congr_left fun verb mem ↦ (read verb mem).same).trans (List.map_id _)

/-- **Verbs that have been read are read again as they are.** -/
theorem parsedVerbs_intercalate (settings : Settings) :
    { settings with verbs := ",".intercalate settings.parsedVerbs }.parsedVerbs = settings.parsedVerbs := by
  rw [parsedVerbs_eq, named_intercalate (fun _ ↦ comma_not_mem_of_mem_parsedVerbs)
    (fun _ ↦ isVerb_of_mem_parsedVerbs), eraseDups_of_nodup settings.nodup_parsedVerbs]

/-! ### Verbs of consoles -/

theorem isVerb_singleMethod (settings : Settings) : IsVerb settings.singleMethod := by
  rw [singleMethod]
  split
  · exact ⟨by decide, by with_unfolding_all rfl⟩
  · next some => exact isVerb_upper_trim fun none ↦ some (String.isEmpty_iff.mpr none)

theorem isVerb_of_mem_consoleVerbs (mem : verb ∈ settings.consoleVerbs) : IsVerb verb := by
  rw [consoleVerbs] at mem
  split at mem
  · rw [List.mem_singleton.mp mem]
    exact settings.isVerb_singleMethod
  · exact isVerb_of_mem_parsedVerbs mem

theorem nodup_consoleVerbs (settings : Settings) : settings.consoleVerbs.Nodup := by
  rw [consoleVerbs]
  split
  · exact List.pairwise_singleton _ _
  · exact settings.nodup_parsedVerbs

/-- A console has the verbs that are set. -/
theorem verbsOf_consoleVerbs (settings : Settings) :
    Console.verbsOf settings.consoleVerbs settings.singleVerb = settings.consoleVerbs := by
  refine Console.verbsOf_of_isVerb (fun _ ↦ isVerb_of_mem_consoleVerbs) settings.nodup_consoleVerbs
    fun only ↦ ?_
  rw [consoleVerbs, if_pos only]
  exact Nat.le_refl 1

end Settings

/-! ### Panels -/

namespace Console

variable {console : Console} {index : Nat} {panel : Panel} {name : String}

/-- The verb of a panel finds it, where no two panels have the same verb. -/
theorem panelIndex?_of_verb (distinct : (console.panels.map Panel.verb).Nodup)
    (there : console.panels[index]? = some panel) (named : Text.upper name = panel.verb) :
    console.panelIndex? name = some index ∧
      console.panels.find? (·.verb == Text.upper name) = some panel := by
  obtain ⟨bound, here⟩ := List.getElem?_eq_some_iff.mp there
  have first : console.panelIndex? name = some index := by
    rw [panelIndex?, named]
    refine List.findIdx?_eq_some_iff_getElem.mpr
      ⟨bound, by rw [here, beq_self_eq_true], fun place before same ↦ ?_⟩
    have verbs : (console.panels.map Panel.verb)[place]? = (console.panels.map Panel.verb)[index]? := by
      rw [List.getElem?_map, List.getElem?_map, there, List.getElem?_eq_getElem (before.trans bound)]
      exact congrArg some (beq_iff_eq.mp same)
    have place_eq := (List.getElem?_inj (by simpa using before.trans bound) distinct).mp verbs
    exact absurd place_eq before.ne
  refine ⟨first, ?_⟩
  rw [List.find?_eq_bind_findIdx?_getElem?]
  exact (congrArg (Option.bind · (console.panels[·]?)) first).trans there

end Console

/-- **A console has one panel for each verb that is set.** Whatever text names the verbs of settings without a
danger: the verbs that are read from it are those of its parts that are not blank, in upper case, each once
and in the order in which they come first; joined with commas they are read again as they are. A console for
any path and gateway can be made, and it has one panel for each of its verbs, in their order. In single mode
there is one panel, whose entry has the path as its key and whose schema is asked for without a query. The
name of a verb finds its panel, whatever letters of ASCII are written in upper or lower case. -/
theorem Settings.one_panel_for_each_verb {settings : Settings} (safe : settings.dangers = [])
    (path : String) (gateway : Remote.Gateway) :
    FirstOccurrences (named settings.verbs) settings.parsedVerbs ∧
      { settings with verbs := ",".intercalate settings.parsedVerbs }.parsedVerbs = settings.parsedVerbs ∧
      ∃ console, Console.make path settings.consoleVerbs settings.singleVerb gateway = .ok console ∧
        console.panels.map Panel.verb = settings.consoleVerbs ∧ settings.consoleVerbs.Nodup ∧
        (settings.singleVerb = true → ∃ panel, console.panels = [panel] ∧ panel.key = path ∧
          panel.schemaQuery = "") ∧
        ∀ index panel, console.panels[index]? = some panel → ∀ name : String,
          name.toList.map Char.toLower = panel.verb.toList.map Char.toLower →
            console.panelIndex? name = some index ∧
              console.panels.find? (·.verb == Text.upper name) = some panel := by
  have some : Console.verbsOf settings.consoleVerbs settings.singleVerb ≠ [] :=
    Console.verbsOf_ne_nil (exists_filled_verb safe) settings.singleVerb
  obtain ⟨console, made, -⟩ := Console.exists_make some path gateway
  have verbs := Console.verbs_make made
  rw [verbsOf_consoleVerbs] at verbs
  have distinct : (console.panels.map Panel.verb).Nodup := verbs ▸ settings.nodup_consoleVerbs
  refine ⟨?_, settings.parsedVerbs_intercalate, console, made, verbs, settings.nodup_consoleVerbs,
    fun only ↦ ?_, fun index panel there name same ↦ ?_⟩
  · rw [parsedVerbs_eq]
    exact firstOccurrences_eraseDups _
  · have panels := Console.make_eq_ok made
    rw [verbsOf_consoleVerbs, consoleVerbs, if_pos only, only] at panels
    exact ⟨_, congrArg Console.panels panels, rfl, rfl⟩
  · refine Console.panelIndex?_of_verb distinct there ?_
    have mem : panel.verb ∈ settings.consoleVerbs := by
      rw [← verbs]
      exact List.mem_map_of_mem (List.mem_of_getElem? there)
    rw [Text.upper_eq_of_toLower_eq same, (isVerb_of_mem_consoleVerbs mem).upper]

/-- A verb that is named twice in different cases has one panel, which every case finds. -/
theorem Settings.verb_named_twice_has_one_panel : ∃ (settings : Settings) (console : Console) (post : Panel),
    settings.verbs = " get,Post,,GET " ∧ settings.dangers = [] ∧ settings.parsedVerbs = ["GET", "POST"] ∧
      Console.make "/a" settings.consoleVerbs settings.singleVerb default = .ok console ∧
      console.panels.map Panel.verb = ["GET", "POST"] ∧ post ∈ console.panels ∧
      console.panelIndex? "pOsT" = some 1 ∧
      console.panels.find? (·.verb == Text.upper "pOsT") = some post := by
  generalize settings_eq : (⟨"development", "INFO", "sqlite:///./form_console.db", "database",
    "http://127.0.0.1:8080", .ofInt 15, 32, " get,Post,,GET ", false, "POST"⟩ : Settings) = settings
  have safe : settings.dangers = [] := by
    subst settings_eq
    decide +kernel
  have verbs : settings.parsedVerbs = ["GET", "POST"] := by
    subst settings_eq
    decide +kernel
  have many : settings.singleVerb = false := by rw [← settings_eq]
  obtain ⟨-, -, console, made, panels, -, -, finds⟩ :=
    Settings.one_panel_for_each_verb safe "/a" default
  rw [Settings.consoleVerbs, many, if_neg Bool.false_ne_true, verbs] at panels
  have second : ∃ post, console.panels[1]? = some post ∧ post.verb = "POST" := by
    have verb := congrArg (·[1]?) panels
    rw [List.getElem?_map] at verb
    exact Option.map_eq_some_iff.mp verb
  obtain ⟨post, there, named⟩ := second
  obtain ⟨place, found⟩ := finds 1 post there "pOsT" (by rw [named]; decide)
  exact ⟨settings, console, post, by rw [← settings_eq], safe, verbs, made, panels,
    List.mem_of_getElem? there, place, found⟩

end VerbForms
