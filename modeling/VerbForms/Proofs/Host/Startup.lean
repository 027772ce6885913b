import VerbForms.Host.Server
import VerbForms.Proofs.Console.Fresh
import VerbForms.Proofs.Remote.Gateway
import VerbForms.Proofs.Text.Blank

/-!
# Hosts that start

A host starts with settings that are read without a problem and without a danger. Then it has room for a
console, every console has a verb, and the consoles can be built if a base address is given. Production
never starts without one; other environments do.
-/

namespace VerbForms

variable {values given : Members} {pairs : List (String × String)} {settings : Settings}

/-! ### Settings that are read -/

namespace Settings

/-- A field that is read has its default or what its check has made of the given value. -/
theorem Checked.field_eq_ok {α β : Type} {name : String} {default : α}
    {check : Json → Except FieldFault α} {before : Checked (α → β)} {result : β}
    (read : Checked.field given name default check before = .ok result) :
    ∃ f value, before = .ok f ∧ result = f value ∧
      (value = default ∨ ∃ json, check json = .ok value) := by
  unfold Checked.field at read
  dsimp only at read
  split at read
  · next f value known =>
    refine ⟨f, value, rfl, (Except.ok.inj read).symm, ?_⟩
    split at known
    · next json _ =>
      cases checked : check json with
      | error fault =>
        rw [checked] at known
        cases known
      | ok found =>
        rw [checked] at known
        exact .inr ⟨json, checked.trans (congrArg Except.ok (Except.ok.inj known))⟩
    · exact .inl (Except.ok.inj known).symm
  all_goals cases read

theorem within_eq_ok {α : Type} {less : α → α → Bool} {low high value result : α}
    (fits : Field.within less low high value = .ok result) :
    result = value ∧ less high value = false ∧ less value low = false := by
  rw [Field.within] at fits
  split at fits
  · cases fits
  · next below =>
    split at fits
    · cases fits
    · next above =>
      exact ⟨(Except.ok.inj fits).symm, Bool.eq_false_iff.mpr below, Bool.eq_false_iff.mpr above⟩

/-- Settings that are read have room for at least one console. -/
theorem mostConsoles_of_read (read : Settings.read values pairs = .ok settings) :
    1 ≤ settings.mostConsoles ∧ settings.mostConsoles ≤ 1024 := by
  -- The fields from the last one to the first.
  obtain ⟨_, method, read₁, rfl, -⟩ := Checked.field_eq_ok read
  obtain ⟨_, single, read₂, rfl, -⟩ := Checked.field_eq_ok read₁
  obtain ⟨_, verbs, read₃, rfl, -⟩ := Checked.field_eq_ok read₂
  obtain ⟨_, most, read₄, rfl, room⟩ := Checked.field_eq_ok read₃
  obtain ⟨_, timeout, read₅, rfl, -⟩ := Checked.field_eq_ok read₄
  obtain ⟨_, base, read₆, rfl, -⟩ := Checked.field_eq_ok read₅
  obtain ⟨_, backend, read₇, rfl, -⟩ := Checked.field_eq_ok read₆
  obtain ⟨_, url, read₈, rfl, -⟩ := Checked.field_eq_ok read₇
  obtain ⟨_, level, read₉, rfl, -⟩ := Checked.field_eq_ok read₈
  obtain ⟨_, environment, made, rfl, -⟩ := Checked.field_eq_ok read₉
  cases made
  show 1 ≤ most ∧ most ≤ 1024
  rcases room with rfl | ⟨json, checked⟩
  · decide
  · obtain ⟨n, -, fits⟩ := bind_eq_ok.mp checked
    obtain ⟨rfl, below, above⟩ := within_eq_ok fits
    exact ⟨Int.not_lt.mp (of_decide_eq_false above), Int.not_lt.mp (of_decide_eq_false below)⟩

/-! ### Settings without a danger -/

theorem verbs_of_safe (safe : settings.dangers = []) :
    settings.singleVerb = true ∨ settings.parsedVerbs ≠ [] := by
  obtain ⟨common, -⟩ := List.append_eq_nil_iff.mp safe
  obtain ⟨-, verbs⟩ := List.append_eq_nil_iff.mp common
  split at verbs
  · cases verbs
  · next named => simpa [or_comm, imp_iff_not_or] using named

/-- Every console of a host without a danger has a verb that is not blank. -/
theorem exists_filled_verb (safe : settings.dangers = []) :
    ∃ verb ∈ settings.consoleVerbs, Text.Filled verb := by
  rw [consoleVerbs]
  split
  · refine ⟨_, List.mem_singleton_self _, ?_⟩
    rw [singleMethod]
    split
    · exact ⟨'P', by decide, rfl⟩
    · next named => exact Text.filled_upper_trim fun none ↦ named (String.isEmpty_iff.mpr none)
  · next many =>
    obtain ⟨verb, mem⟩ := List.exists_mem_of_ne_nil _ ((verbs_of_safe safe).resolve_left many)
    obtain ⟨part, named⟩ := List.mem_filter.mp (List.mem_eraseDups.mp mem)
    obtain ⟨chars, -, rfl⟩ := List.mem_map.mp part
    exact ⟨_, mem, Text.filled_upper_trim (by simpa using named)⟩

/-- Production starts with a base address only. -/
theorem base_of_production (safe : settings.dangers = []) (production : settings.isProduction = true) :
    Text.trim settings.remoteBase ≠ "" := by
  obtain ⟨-, dangers⟩ := List.append_eq_nil_iff.mp safe
  rw [if_pos production] at dangers
  simp only [productionDangers, List.append_eq_nil_iff] at dangers
  obtain ⟨⟨⟨-, secure⟩, -⟩, -⟩ := dangers
  split at secure
  · next begins =>
    have begins : Text.beginsWith "https://" (Text.lower (Text.trim settings.remoteBase)) = true := begins
    intro none
    rw [none] at begins
    exact absurd begins (by decide)
  · cases secure

end Settings

/-! ### Consoles -/

theorem Console.verbsOf_ne_nil {verbs : List String} (named : ∃ verb ∈ verbs, Text.Filled verb)
    (single : Bool) : Console.verbsOf verbs single ≠ [] := by
  obtain ⟨verb, mem, filled⟩ := named
  have kept : Text.upper (Text.trim verb) ∈
      ((verbs.map fun verb ↦ Text.upper (Text.trim verb)).filter (!·.isEmpty)).eraseDups := by
    refine List.mem_eraseDups.mpr (List.mem_filter.mpr ⟨List.mem_map_of_mem mem, ?_⟩)
    simpa using filled.trim.upper.ne_empty
  rw [Console.verbsOf]
  split
  · rw [Ne, List.take_eq_nil_iff, not_or]
    exact ⟨Nat.one_ne_zero, List.ne_nil_of_mem kept⟩
  · exact List.ne_nil_of_mem kept

/-- A console with a verb is made, and it has panels. -/
theorem Console.exists_make {verbs : List String} {single : Bool}
    (named : Console.verbsOf verbs single ≠ []) (path : String) (gateway : Remote.Gateway) :
    ∃ console, Console.make path verbs single gateway = .ok console ∧ console.panels ≠ [] := by
  rw [Console.make]
  split
  · next none => exact absurd none named
  · exact ⟨_, rfl, fun none ↦ named (List.map_eq_nil_iff.mp none)⟩

namespace Remote.Gateway

variable {baseUrl path : String}

theorem make_of_blank (blank : Text.trim baseUrl = "") : Gateway.make baseUrl path = .error .emptyBase := by
  rw [Gateway.make, blank]
  rfl

/-- A gateway is made if its base address is given and can be read. -/
theorem make_of_readable (some : Text.trim baseUrl ≠ "") {base : Address}
    (readable : (Address.parse (baseText baseUrl) >>= Address.asBase) = .ok base) :
    Gateway.make baseUrl path = .ok ⟨base, keptPath path, false⟩ := by
  have readable : (Address.parse (if (Text.trim baseUrl).toList.getLast? = '/' then Text.trim baseUrl
    else Text.trim baseUrl ++ "/") >>= Address.asBase) = .ok base := readable
  unfold Gateway.make
  dsimp only
  rw [if_neg fun none ↦ some (String.isEmpty_iff.mp none), readable]

end Remote.Gateway

namespace Host

/-- Settings without a danger start a host with room for as many consoles as they say. -/
theorem start_of_safe (read : Settings.read values pairs = .ok settings) (safe : settings.dangers = [])
    (script : Remote.Script) :
    ∃ registry, (registry.bound : Int) = settings.mostConsoles ∧
      start settings script = .ok (Desk.make (storeOf settings) script registry (factoryOf settings)) := by
  have room := (Settings.mostConsoles_of_read read).1
  have positive : 0 < settings.mostConsoles.toNat := by omega
  refine ⟨⟨settings.mostConsoles.toNat, positive, [], [], 0, [], []⟩, Int.toNat_of_nonneg (by omega), ?_⟩
  rw [start, safe, if_pos List.isEmpty_nil, Registry.make, dif_pos positive]

/-- **A host that starts serves if a base address is given.** Settings that are read without a problem and
have no danger start a host with room for their number of consoles. The consoles that the host makes,
whatever the path, have a verb each, and they can be made exactly if the base address is not blank, as long
as the address library reads it; the only error is the one about a blank base address. In production the
base address is not blank. -/
theorem started_host_serves_iff_base_given (read : Settings.read values pairs = .ok settings)
    (safe : settings.dangers = [])
    (readable : Text.trim settings.remoteBase ≠ "" → ∃ base,
      (Remote.Address.parse (Remote.Gateway.baseText settings.remoteBase) >>= Remote.Address.asBase) =
        .ok base)
    (script : Remote.Script) (path : String) :
    ∃ desk, start settings script = .ok desk ∧ (desk.registry.bound : Int) = settings.mostConsoles ∧
      ((∃ console, console.panels ≠ [] ∧
        Console.build desk.factory.baseUrl path desk.factory.verbs desk.factory.single = .ok console) ↔
          Text.trim settings.remoteBase ≠ "") ∧
      (Text.trim settings.remoteBase = "" →
        Console.build desk.factory.baseUrl path desk.factory.verbs desk.factory.single =
          .error (.gateway .emptyBase)) ∧
      (settings.isProduction = true → Text.trim settings.remoteBase ≠ "") := by
  obtain ⟨registry, bound, started⟩ := start_of_safe read safe script
  have refused (blank : Text.trim settings.remoteBase = "") :
      Console.build settings.remoteBase path settings.consoleVerbs settings.singleVerb =
        .error (.gateway .emptyBase) := by
    rw [Console.build, Remote.Gateway.make_of_blank blank]
  refine ⟨_, started, bound, ⟨?_, fun some ↦ ?_⟩, refused, Settings.base_of_production safe⟩
  · rintro ⟨console, -, built⟩ blank
    cases (refused blank).symm.trans built
  · obtain ⟨base, parsed⟩ := readable some
    obtain ⟨console, made, panels⟩ :=
      Console.exists_make (Console.verbsOf_ne_nil (Settings.exists_filled_verb safe) settings.singleVerb)
        path ⟨base, Remote.Gateway.keptPath path, false⟩
    refine ⟨console, panels, ?_⟩
    show Console.build settings.remoteBase path settings.consoleVerbs settings.singleVerb = .ok console
    rw [Console.build, Remote.Gateway.make_of_readable some parsed]
    exact made

/-- A host with a base address serves a verb that is written with a blank and in lower case. -/
theorem example_site_serves : ∃ settings desk,
    Settings.read []
      [("FORM_CONSOLE_UPSTREAM_BASE_URL", "https://upstream.test"), ("FORM_CONSOLE_VERBS", ", post")] =
        .ok settings ∧
      settings.dangers = [] ∧ start settings (.sequence ⟨[], 0⟩) = .ok desk ∧
      ∃ console, console.panels ≠ [] ∧
        Console.build desk.factory.baseUrl "/a" desk.factory.verbs desk.factory.single = .ok console := by
  have read : Settings.read []
      [("FORM_CONSOLE_UPSTREAM_BASE_URL", "https://upstream.test"), ("FORM_CONSOLE_VERBS", ", post")] =
        .ok ⟨"development", "INFO", "sqlite:///./form_console.db", "database", "https://upstream.test",
          .ofInt 15, 32, ", post", false, "POST"⟩ := by with_unfolding_all rfl
  have safe : Settings.dangers ⟨"development", "INFO", "sqlite:///./form_console.db", "database",
      "https://upstream.test", .ofInt 15, 32, ", post", false, "POST"⟩ = [] := by decide +kernel
  obtain ⟨desk, started, -, served, -⟩ := started_host_serves_iff_base_given read safe
    (fun _ ↦ ⟨⟨"https".toList, [], "upstream.test".toList, none, "/".toList, none, none⟩,
      by decide +kernel⟩) (.sequence ⟨[], 0⟩) "/a"
  exact ⟨_, desk, read, safe, started, served.mpr (by decide +kernel)⟩

/-- A host starts with a blank base address, and can make no console. -/
theorem exists_host_without_base : ∃ settings desk,
    Settings.read [] [("FORM_CONSOLE_UPSTREAM_BASE_URL", " ")] = .ok settings ∧
      settings.dangers = [] ∧ start settings (.sequence ⟨[], 0⟩) = .ok desk ∧
      normalizeResource "/a" = .ok "/a" ∧
      Console.build desk.factory.baseUrl "/a" desk.factory.verbs desk.factory.single =
        .error (.gateway .emptyBase) := by
  have read : Settings.read [] [("FORM_CONSOLE_UPSTREAM_BASE_URL", " ")] =
      .ok ⟨"development", "INFO", "sqlite:///./form_console.db", "database", " ", .ofInt 15, 32,
        "GET,POST,PUT,DELETE", false, "POST"⟩ := by with_unfolding_all rfl
  exact ⟨_, _, read, by decide +kernel, by with_unfolding_all rfl, by with_unfolding_all rfl,
    by with_unfolding_all rfl⟩

end Host

end VerbForms
