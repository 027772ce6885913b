import VerbForms.Proofs.Schema.Expands

/-!
# Expansion of documents

What the members of an expanded document and the entries of its sections come from, and where the
definitions of a document stand in it.
-/

namespace VerbForms.Schema

variable {defs : Definitions} {document value out : Json} {members outs entries : Members}
variable {key name : String} {target : Json}

/-! ### Sections and other members -/

theorem expandEntries_cons_eq_ok_iff {rest : Members} :
    expandEntries defs ((name, value) :: rest) = .ok outs ↔
      ∃ out, Expands defs [name] value out ∧
        ∃ tail, expandEntries defs rest = .ok tail ∧ (name, out) :: tail = outs := by
  rw [expandEntries, bind_eq_ok]
  simp only [bind_eq_ok, pure_eq_ok, expand_eq_ok_iff]

theorem expandDocument_cons_eq_ok_iff {rest : Members} :
    expandDocument defs ((key, value) :: rest) = .ok outs ↔
      ∃ out, expandTop defs key value = .ok out ∧
        ∃ tail, expandDocument defs rest = .ok tail ∧ (key, out) :: tail = outs := by
  rw [expandDocument, bind_eq_ok]
  simp only [bind_eq_ok, pure_eq_ok]

/-- Entries expand one by one, each with its own name open. -/
theorem aligned_expandEntries (run : expandEntries defs entries = .ok outs) :
    Assoc.Aligned (fun name ↦ Expands defs [name]) entries outs := by
  induction entries generalizing outs with
  | nil =>
    obtain rfl := Except.ok.inj run
    exact .nil
  | cons head rest ih =>
    obtain ⟨out, expands, tail, runRest, rfl⟩ := expandEntries_cons_eq_ok_iff.mp run
    exact .cons expands (ih runRest)

/-- Members of a document expand one by one. -/
theorem aligned_expandDocument (run : expandDocument defs members = .ok outs) :
    Assoc.Aligned (fun key value out ↦ expandTop defs key value = .ok out) members outs := by
  induction members generalizing outs with
  | nil =>
    obtain rfl := Except.ok.inj run
    exact .nil
  | cons head rest ih =>
    obtain ⟨out, runHead, tail, runRest, rfl⟩ := expandDocument_cons_eq_ok_iff.mp run
    exact .cons runHead (ih runRest)

theorem expandEntries_eq_ok_iff : expandEntries defs entries = .ok outs ↔
    Assoc.Aligned (fun name ↦ Expands defs [name]) entries outs := by
  refine ⟨aligned_expandEntries, fun aligned ↦ ?_⟩
  induction aligned with
  | nil => rfl
  | cons head _ ih => exact expandEntries_cons_eq_ok_iff.mpr ⟨_, head, _, ih, rfl⟩

theorem expandDocument_eq_ok_iff : expandDocument defs members = .ok outs ↔
    Assoc.Aligned (fun key value out ↦ expandTop defs key value = .ok out) members outs := by
  refine ⟨aligned_expandDocument, fun aligned ↦ ?_⟩
  induction aligned with
  | nil => rfl
  | cons head _ ih => exact expandDocument_cons_eq_ok_iff.mpr ⟨_, head, _, ih, rfl⟩

/-- A member that is no section with entries. -/
def IsPlain (key : String) (value : Json) : Prop :=
  key ∉ sectionKeys ∨ ∀ entries, value ≠ .object entries

/-- A section expands entry by entry. -/
theorem expandTop_section (inSections : key ∈ sectionKeys) :
    expandTop defs key (.object entries) = .ok out ↔
      ∃ outs, expandEntries defs entries = .ok outs ∧ Json.object outs = out := by
  rw [expandTop, if_pos inSections, map_eq_ok]

theorem expandTop_of_plain (plain : IsPlain key value) :
    expandTop defs key value = expand defs [] value := by
  cases value with
  | object entries =>
    have other : key ∉ sectionKeys := plain.resolve_right fun none ↦ none entries rfl
    rw [expandTop, if_neg other]
  | _ => rw [expandTop]; simp

/-- Any other member expands as a whole. -/
theorem expandTop_plain (plain : IsPlain key value) :
    expandTop defs key value = .ok out ↔ Expands defs [] value out := by
  rw [expandTop_of_plain plain, expand_eq_ok_iff]

/-- A member is a section or it is plain. -/
theorem exists_section_or_isPlain (key : String) (value : Json) :
    (key ∈ sectionKeys ∧ ∃ entries, value = .object entries) ∨ IsPlain key value := by
  by_cases inSections : key ∈ sectionKeys
  · cases value with
    | object entries => exact .inl ⟨inSections, entries, rfl⟩
    | _ => exact .inr (.inr fun entries same ↦ by cases same)
  · exact .inr (.inl inSections)

/-- A root that is no reference is opened as it is. -/
theorem openRoot_of_plain (plain : pointer? members = none) : openRoot defs members = .ok members := by
  unfold openRoot
  split
  · rfl
  · next reference =>
    rw [plain] at reference
    cases reference

/-- Where the root is no reference, its members are expanded as they are. -/
theorem resolveWith_eq_ok_iff_of_plain (plain : pointer? members = none) {result : Json} :
    resolveWith defs (.object members) = .ok result ↔
      ∃ outs, expandDocument defs members = .ok outs ∧ Json.object outs = result := by
  rw [resolveWith, openRoot_of_plain plain, bind_eq_ok]
  simp only [Except.ok.injEq, exists_eq_left', bind_eq_ok, pure_eq_ok]

/-- A document with one member that is no reference and has no parts is left as it is. -/
theorem resolve_single (noReference : key ≠ referenceKey) (noObject : ∀ members, value ≠ .object members)
    (noArray : ∀ items, value ≠ .array items) :
    resolve (.object [(key, value)]) = .ok (.object [(key, value)]) := by
  have plain : pointer? [(key, value)] = none := by simp [pointer?, Assoc.get?, noReference]
  have top {defs : Definitions} : expandTop defs key value = .ok value :=
    (expandTop_plain (.inr noObject)).mpr (.leaf noObject noArray)
  exact (resolveWith_eq_ok_iff_of_plain plain).mpr
    ⟨_, expandDocument_cons_eq_ok_iff.mpr ⟨value, top, [], rfl, rfl⟩, rfl⟩

/-! ### Definitions of a document -/

theorem exists_of_get?_sectionOf (found : Assoc.get? (sectionOf document key) name = some target) :
    ∃ entries, document.member? key = some (.object entries) ∧
      Assoc.get? entries name = some target := by
  unfold sectionOf at found
  cases hm : document.member? key with
  | none =>
    rw [hm] at found
    cases found
  | some value =>
    rw [hm] at found
    cases value with
    | object entries => exact ⟨entries, rfl, found⟩
    | _ => cases found

theorem sectionOf_eq (hasSection : document.member? key = some (.object entries)) :
    sectionOf document key = entries := by
  rw [sectionOf, hasSection]
  rfl

theorem nodup_keys_sectionOf (distinct : document.DistinctKeys) (key : String) :
    (Assoc.keys (sectionOf document key)).Nodup := by
  unfold sectionOf
  cases hm : document.member? key with
  | none => exact List.nodup_nil
  | some value =>
    cases value with
    | object entries =>
      cases document with
      | object members =>
        have inner := (Json.distinctKeys_object.mp distinct).2 _ (Assoc.mem_of_get?_eq_some hm)
        exact (Json.distinctKeys_object.mp inner).1
      | _ => cases hm
    | _ => exact List.nodup_nil

/-- The second section wins. -/
theorem get?_definitionsOf (distinct : document.DistinctKeys) (name : String) :
    Assoc.get? (definitionsOf document) name =
      (Assoc.get? (sectionOf document "$defs") name).or
        (Assoc.get? (sectionOf document "definitions") name) := by
  have second := nodup_keys_sectionOf distinct "$defs"
  have first := nodup_keys_sectionOf distinct "definitions"
  rw [definitionsOf, sectionKeys, List.foldl_cons, List.foldl_cons, List.foldl_nil,
    Assoc.get?_putAll _ second, Assoc.get?_putAll _ first, Assoc.get?_nil, Option.or_none]

/-- A definition of a document is an entry of one of its sections. -/
theorem exists_entry_of_get?_definitionsOf (distinct : document.DistinctKeys)
    (known : Assoc.get? (definitionsOf document) name = some target) :
    ∃ key ∈ sectionKeys, ∃ entries, document.member? key = some (.object entries) ∧
      Assoc.get? entries name = some target := by
  rw [get?_definitionsOf distinct, Option.or_eq_some_iff] at known
  rcases known with found | ⟨_, found⟩
  · exact ⟨"$defs", by decide, exists_of_get?_sectionOf found⟩
  · exact ⟨"definitions", by decide, exists_of_get?_sectionOf found⟩

/-- An entry of a section has a definition of its name. -/
theorem exists_definition_of_mem_sectionOf (distinct : document.DistinctKeys)
    (inSections : key ∈ sectionKeys) (mem : name ∈ Assoc.keys (sectionOf document key)) :
    ∃ target, Assoc.get? (definitionsOf document) name = some target := by
  obtain ⟨value, found⟩ := Option.isSome_iff_exists.mp ((Assoc.mem_keys_iff _ name).mp mem)
  rw [get?_definitionsOf distinct]
  rcases List.mem_pair.mp inSections with rfl | rfl
  · rw [found, Option.or_some]
    exact ⟨_, rfl⟩
  · rw [found, Option.some_or]
    exact ⟨value, rfl⟩

/-- The definitions of a document with distinct keys have distinct keys. -/
theorem distinct_definitionsOf (distinct : document.DistinctKeys) :
    (definitionsOf document).Distinct := by
  intro name target known
  obtain ⟨key, _, entries, hasSection, found⟩ := exists_entry_of_get?_definitionsOf distinct known
  cases document with
  | object members =>
    have outer := distinct.member hasSection
    exact outer.member found
  | _ => cases hasSection

/-! ### A document with nested references -/

/-- A document with a reference to a definition that refers to another one. -/
def nestedReferences : Json :=
  .object
    [("item", .object [("$ref", .text "#/$defs/whole")]),
      ("$defs", .object
        [("whole", .object [("type", .text "object"),
          ("part", .object [("$ref", .text "#/$defs/part")])]),
        ("part", .object [("type", .text "object")])])]

/-- What the document with nested references is resolved to. -/
def nestedExpanded : Json :=
  .object
    [("item", .object [("type", .text "object"), ("part", .object [("type", .text "object")])]),
      ("$defs", .object
        [("whole", .object [("type", .text "object"),
          ("part", .object [("type", .text "object")])]),
        ("part", .object [("type", .text "object")])])]

theorem nestedReferences_distinct : nestedReferences.DistinctKeys := by
  simp [nestedReferences, Json.DistinctKeys, Json.DistinctKeysMembers, Assoc.keys]

/-- The inner reference is replaced on every path on which its definition is not open. -/
private theorem expands_part {path : List String} (fresh : "part" ∉ path) :
    Expands (definitionsOf nestedReferences) path (.object [("$ref", .text "#/$defs/part")])
      (.object [("type", .text "object")]) := by
  have replaced : referent (definitionsOf nestedReferences) path "#/$defs/part" =
      .ok (.inlined "part" (.object [("type", .text "object")])) :=
    referent_eq_inlined_iff.mpr ⟨by decide, rfl, fresh, aliasType_of_declaredType rfl _⟩
  exact .inlined rfl replaced (.object rfl (.cons (.leaf nofun nofun) .nil))

private theorem expands_whole :
    Expands (definitionsOf nestedReferences) ["whole"]
      (.object [("type", .text "object"), ("part", .object [("$ref", .text "#/$defs/part")])])
      (.object [("type", .text "object"), ("part", .object [("type", .text "object")])]) :=
  .object rfl (.cons (.leaf nofun nofun) (.cons (expands_part (by decide)) .nil))

theorem referent_whole :
    referent (definitionsOf nestedReferences) [] "#/$defs/whole" = .ok (.inlined "whole"
      (.object [("type", .text "object"), ("part", .object [("$ref", .text "#/$defs/part")])])) :=
  referent_eq_inlined_iff.mpr ⟨by decide, rfl, by decide, aliasType_of_declaredType rfl _⟩

theorem resolve_nestedReferences : resolve nestedReferences = .ok nestedExpanded := by
  have item : Expands (definitionsOf nestedReferences) []
      (.object [("$ref", .text "#/$defs/whole")]) _ :=
    .inlined rfl referent_whole expands_whole
  have part : Expands (definitionsOf nestedReferences) ["part"]
      (.object [("type", .text "object")]) (.object [("type", .text "object")]) :=
    .object rfl (.cons (.leaf nofun nofun) .nil)
  have last : expandEntries (definitionsOf nestedReferences)
      [("part", .object [("type", .text "object")])] =
        .ok [("part", .object [("type", .text "object")])] :=
    expandEntries_cons_eq_ok_iff.mpr ⟨_, part, [], rfl, rfl⟩
  have sections := expandEntries_cons_eq_ok_iff.mpr ⟨_, expands_whole, _, last, rfl⟩
  refine (resolveWith_eq_ok_iff_of_plain rfl).mpr ⟨_, ?_, rfl⟩
  refine expandDocument_cons_eq_ok_iff.mpr ⟨_, expand_eq_ok_iff.mpr item, _, ?_, rfl⟩
  refine expandDocument_cons_eq_ok_iff.mpr ⟨_, ?_, [], rfl, rfl⟩
  exact (expandTop_section (by decide)).mpr ⟨_, sections, rfl⟩

end VerbForms.Schema
