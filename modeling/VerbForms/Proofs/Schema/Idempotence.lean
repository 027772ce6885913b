import VerbForms.Proofs.Schema.ReferenceFree

/-!
# Resolving twice

A value that is free of references expands to itself, by any definitions and on any path. So the
documents that resolving leaves as they are are exactly the self-contained ones, and a resolved
document is one of them.
-/

namespace VerbForms.Schema

variable {defs : Definitions} {document value result : Json} {members entries : Members}
variable {key : String}

/-! ### Values -/

/-- The parts of a value that is free of references are free of them. -/
theorem ReferenceFree.child {step : Json.Step} {child : Json} (free : ReferenceFree value)
    (isChild : value.child? step = some child) : ReferenceFree child := by
  intro position members found
  apply free (step :: position)
  rw [Json.at?_cons_of_child? isChild]
  exact found

theorem ReferenceFree.plain (free : ReferenceFree (.object members)) : pointer? members = none :=
  free [] members rfl

theorem ReferenceFree.root (free : ReferenceFree value) : reference? value = none := by
  cases value with
  | object members => exact free.plain
  | _ => rfl

theorem ReferenceFree.item {items : List Json} {item : Json} (free : ReferenceFree (.array items))
    (mem : item ∈ items) : ReferenceFree item := by
  obtain ⟨index, found⟩ := List.mem_iff_getElem?.mp mem
  have isChild : (Json.array items).child? (.item index) = some item := found
  exact free.child isChild

/-- Every entry of an object with distinct keys is one of its parts. -/
theorem child?_of_mem {entry : String × Json} (distinct : (Json.object members).DistinctKeys)
    (mem : entry ∈ members) : (Json.object members).child? (.member entry.1) = some entry.2 :=
  Assoc.get?_eq_some_of_mem (Json.distinctKeys_object.mp distinct).1 mem

theorem sectionOf_eq_of_mem (distinct : (Json.object members).DistinctKeys)
    (mem : (key, Json.object entries) ∈ members) : sectionOf (.object members) key = entries :=
  sectionOf_eq (child?_of_mem distinct mem)

theorem ReferenceFree.member {entry : String × Json} (free : ReferenceFree (.object members))
    (distinct : (Json.object members).DistinctKeys) (mem : entry ∈ members) :
    ReferenceFree entry.2 :=
  free.child (child?_of_mem distinct mem)

mutual

/-- A value that is free of references expands to itself. -/
theorem expands_self (path : List String) :
    ∀ value : Json, value.DistinctKeys → ReferenceFree value → Expands defs path value value
  | .object members, distinct, free =>
    .object free.plain (expandsMembers_self path members fun _ mem ↦
      ⟨(Json.distinctKeys_object.mp distinct).2 _ mem, free.member distinct mem⟩)
  | .array items, distinct, free =>
    .array (expandsItems_self path items fun _ mem ↦
      ⟨Json.distinctKeys_array.mp distinct _ mem, free.item mem⟩)
  | .null, _, _ => .leaf nofun nofun
  | .bool _, _, _ => .leaf nofun nofun
  | .int _, _, _ => .leaf nofun nofun
  | .real _, _, _ => .leaf nofun nofun
  | .text _, _, _ => .leaf nofun nofun

theorem expandsItems_self (path : List String) :
    ∀ items : List Json, (∀ item ∈ items, item.DistinctKeys ∧ ReferenceFree item) →
      ExpandsItems defs path items items
  | [], _ => .nil
  | item :: rest, free => by
    obtain ⟨⟨distinct, first⟩, others⟩ := List.forall_mem_cons.mp free
    exact .cons (expands_self path item distinct first) (expandsItems_self path rest others)

theorem expandsMembers_self (path : List String) :
    ∀ members : Members, (∀ entry ∈ members, entry.2.DistinctKeys ∧ ReferenceFree entry.2) →
      ExpandsMembers defs path members members
  | [], _ => .nil
  | (_, value) :: rest, free => by
    obtain ⟨⟨distinct, first⟩, others⟩ := List.forall_mem_cons.mp free
    exact .cons (expands_self path value distinct first) (expandsMembers_self path rest others)

end

/-! ### Documents -/

theorem expandEntries_self
    (free : ∀ entry ∈ entries, entry.2.DistinctKeys ∧ ReferenceFree entry.2) :
    expandEntries defs entries = .ok entries := by
  induction entries with
  | nil => rfl
  | cons head rest ih =>
    obtain ⟨⟨distinct, first⟩, others⟩ := List.forall_mem_cons.mp free
    apply expandEntries_cons_eq_ok_iff.mpr
    exact ⟨head.2, expands_self [head.1] head.2 distinct first, rest, ih others, rfl⟩

/-- A member of a document stays as it is if its parts are free of references and it is none itself,
which a section may look like. -/
theorem expandTop_self (distinct : value.DistinctKeys)
    (parts : ∀ step child, value.child? step = some child → ReferenceFree child)
    (root : key ∉ sectionKeys → reference? value = none) :
    expandTop defs key value = .ok value := by
  rcases exists_section_or_isPlain key value with ⟨inSections, entries, rfl⟩ | plain
  · apply (expandTop_section inSections).mpr
    refine ⟨entries, expandEntries_self fun entry mem ↦ ?_, rfl⟩
    exact ⟨(Json.distinctKeys_object.mp distinct).2 entry mem,
      parts (.member entry.1) entry.2 (child?_of_mem distinct mem)⟩
  · have noReference : reference? value = none := by
      rcases plain with other | noObject
      · exact root other
      · cases value with
        | object entries => exact absurd rfl (noObject entries)
        | _ => rfl
    apply (expandTop_plain plain).mpr
    exact expands_self [] value distinct (referenceFree_of_children noReference parts)

/-- A member that is free of references stays as it is. -/
theorem ReferenceFree.expandTop (free : ReferenceFree value) (distinct : value.DistinctKeys)
    (key : String) : expandTop defs key value = .ok value := by
  apply expandTop_self distinct
  · intro step child isChild
    exact free.child isChild
  · intro _
    exact free.root

theorem expandDocument_self (same : ∀ entry ∈ members, expandTop defs entry.1 entry.2 = .ok entry.2) :
    expandDocument defs members = .ok members := by
  induction members with
  | nil => rfl
  | cons head rest ih =>
    obtain ⟨first, others⟩ := List.forall_mem_cons.mp same
    apply expandDocument_cons_eq_ok_iff.mpr
    exact ⟨head.2, first, rest, ih others, rfl⟩

/-- The members of a self-contained document, sections among them, stay as they are. -/
theorem SelfContained.expandTop {entry : String × Json} (free : SelfContained (.object members))
    (distinct : (Json.object members).DistinctKeys) (mem : entry ∈ members) :
    expandTop defs entry.1 entry.2 = .ok entry.2 := by
  have here := child?_of_mem distinct mem
  apply expandTop_self ((Json.distinctKeys_object.mp distinct).2 entry mem)
  · intro step child isChild position inner found
    apply free (.member entry.1 :: step :: position) inner
    · rw [Json.at?_cons_of_child? here, Json.at?_cons_of_child? isChild]
      exact found
    · intro key inSections atSection
      cases atSection
  · intro other
    cases hv : entry.2 with
    | object inner =>
      apply free [.member entry.1] inner
      · rw [Json.at?_cons_of_child? here, hv]
        rfl
      · intro key inSections atSection
        cases atSection
        exact other inSections
    | _ => rfl

/-- A self-contained document stays as it is, whatever the definitions. -/
theorem SelfContained.resolveWith (free : SelfContained (.object members))
    (distinct : (Json.object members).DistinctKeys) (defs : Definitions) :
    resolveWith defs (.object members) = .ok (.object members) := by
  have plain : pointer? members = none := by
    apply free [] members rfl
    intro key inSections atSection
    cases atSection
  apply (resolveWith_eq_ok_iff_of_plain plain).mpr
  exact ⟨members, expandDocument_self fun entry mem ↦ free.expandTop distinct mem, rfl⟩

/-- Only objects are resolved, and they become objects. -/
theorem exists_object_of_resolveWith (run : resolveWith defs document = .ok result) :
    ∃ outs, result = .object outs := by
  cases document with
  | object members =>
    obtain ⟨opened, _, run⟩ := bind_eq_ok.mp run
    obtain ⟨outs, _, run⟩ := bind_eq_ok.mp run
    exact ⟨outs, (pure_eq_ok.mp run).symm⟩
  | _ => cases run

/-- The objects that resolving leaves as they are are the self-contained ones. -/
theorem resolveWith_eq_self_iff (known : defs.Distinct)
    (distinct : (Json.object members).DistinctKeys) :
    resolveWith defs (.object members) = .ok (.object members) ↔
      SelfContained (.object members) := by
  constructor
  · intro run
    exact (selfContained_of_resolveWith known distinct run).2
  · intro free
    exact free.resolveWith distinct defs

/-- The result of a run is left as it is by every further one. -/
theorem resolveWith_of_resolveWith (known : defs.Distinct) (distinct : document.DistinctKeys)
    (run : resolveWith defs document = .ok result) (others : Definitions) :
    resolveWith others result = .ok result := by
  obtain ⟨keys, free⟩ := selfContained_of_resolveWith known distinct run
  obtain ⟨outs, rfl⟩ := exists_object_of_resolveWith run
  exact free.resolveWith keys others

theorem distinct_of_distinctKeysMembers (given : Json.DistinctKeysMembers defs) :
    defs.Distinct := by
  intro name target found
  exact (Json.distinctKeysMembers_iff defs).mp given _ (Assoc.mem_of_get?_eq_some found)

/-- **Resolving is idempotent.** Whether the definitions were given or were those of the document, a
resolved document is resolved to itself, by any definitions and by its own. -/
theorem resolve_idempotent (distinct : document.DistinctKeys) :
    (∀ defs, Json.DistinctKeysMembers defs → resolveWith defs document = .ok result →
      resolve result = .ok result ∧ ∀ others, resolveWith others result = .ok result) ∧
    (resolve document = .ok result →
      resolve result = .ok result ∧ ∀ others, resolveWith others result = .ok result) := by
  constructor
  · intro defs given run
    have again := resolveWith_of_resolveWith (distinct_of_distinctKeysMembers given) distinct run
    exact ⟨again (definitionsOf result), again⟩
  · intro run
    have again := resolveWith_of_resolveWith (distinct_definitionsOf distinct) distinct run
    exact ⟨again (definitionsOf result), again⟩

/-- Replaced references are not looked up again, so other definitions change nothing. -/
theorem resolve_idempotent_nested :
    resolveWith (definitionsOf nestedReferences) nestedReferences = .ok nestedExpanded ∧
      resolve nestedExpanded = .ok nestedExpanded ∧
      resolveWith [("whole", .null)] nestedExpanded = .ok nestedExpanded := by
  have given : Json.DistinctKeysMembers (definitionsOf nestedReferences) := by
    simp [definitionsOf, nestedReferences, sectionKeys, sectionOf, Json.member?, Json.members?,
      Assoc.get?, Assoc.putAll, Assoc.put, Json.DistinctKeys, Json.DistinctKeysMembers, Assoc.keys]
  have again := (resolve_idempotent nestedReferences_distinct).1 _ given resolve_nestedReferences
  exact ⟨resolve_nestedReferences, again.1, again.2 _⟩

end VerbForms.Schema
