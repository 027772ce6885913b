import VerbForms.Proofs.Schema.Document

/-!
# No reference survives

In a resolved document no object is a reference, wherever it stands. The two sections are left out,
since their keys are names of definitions: an entry may be called like the member that makes a
reference.
-/

namespace VerbForms.Schema

variable {defs : Definitions} {document value out result : Json} {members outs entries : Members}
variable {path : List String} {key name pointer : String} {target : Json}

/-- No object in the value is a reference. -/
def ReferenceFree (value : Json) : Prop :=
  ∀ position members, value.at? position = some (.object members) → pointer? members = none

/-- Only the sections of a document may look like references. -/
def SelfContained (document : Json) : Prop :=
  ∀ position members, document.at? position = some (.object members) →
    (∀ key ∈ sectionKeys, position ≠ [.member key]) → pointer? members = none

/-! ### Values -/

/-- A value is free of references if it is none and its children are free of them. -/
theorem referenceFree_of_children (root : reference? value = none)
    (children : ∀ step child, value.child? step = some child → ReferenceFree child) :
    ReferenceFree value := by
  intro position members found
  cases position with
  | nil =>
    obtain rfl := Option.some.inj found
    exact root
  | cons step rest =>
    obtain ⟨child, isChild, found⟩ := Json.exists_child?_of_at?_cons found
    exact children step child isChild rest members found

theorem referenceFree_object (plain : pointer? members = none)
    (values : ∀ key child, Assoc.get? members key = some child → ReferenceFree child) :
    ReferenceFree (.object members) := by
  have root : reference? (.object members) = none := plain
  apply referenceFree_of_children root
  intro step child isChild
  cases step with
  | member key => exact values key child isChild
  | item index => cases isChild

theorem referenceFree_single (plain : pointer? [(key, value)] = none) (free : ReferenceFree value) :
    ReferenceFree (.object [(key, value)]) := by
  apply referenceFree_object plain
  intro other child found
  obtain ⟨rfl, rfl⟩ := Prod.mk.inj (List.mem_singleton.mp (Assoc.mem_of_get?_eq_some found))
  exact free

theorem referenceFree_array {items : List Json}
    (free : ∀ (index : Nat) item, items[index]? = some item → ReferenceFree item) :
    ReferenceFree (.array items) := by
  apply referenceFree_of_children rfl
  intro step child isChild
  cases step with
  | member key => cases isChild
  | item index => exact free index child isChild

/-- A value without parts is no reference. -/
theorem referenceFree_leaf (noObject : ∀ members, value ≠ .object members)
    (noArray : ∀ items, value ≠ .array items) : ReferenceFree value := by
  intro position members found
  cases position with
  | nil => exact absurd (Option.some.inj found) (noObject members)
  | cons step rest =>
    obtain ⟨child, isChild, _⟩ := Json.exists_child?_of_at?_cons found
    unfold Json.child? at isChild
    split at isChild
    · exact absurd rfl (noObject _)
    · exact absurd rfl (noArray _)
    · cases isChild

theorem referenceFree_text (text : String) : ReferenceFree (.text text) := by
  apply referenceFree_leaf
  · intro members same
    cases same
  · intro items same
    cases same

mutual

/-- Expansion leaves no reference: where one is replaced, its definition is expanded in turn, and
where one is dropped, its pointer goes and its siblings are expanded. -/
theorem Expands.referenceFree (known : defs.Distinct) {path : List String} {value out : Json} :
    Expands defs path value out → value.DistinctKeys → ReferenceFree out
  | .inlined _ replaced expands, _ =>
    expands.referenceFree known (known _ _ (referent_inlined replaced).1)
  | .dropped _ _ expands, distinct => by
    have left := Json.distinctKeys_object.mp (distinct.erase referenceKey)
    refine referenceFree_object ?_ (expands.referenceFree known left.2)
    rw [expands.pointer?_eq]
    exact pointer?_siblings (Json.distinctKeys_object.mp distinct).1
  | .object plain expands, distinct => by
    have inner := Json.distinctKeys_object.mp distinct
    exact referenceFree_object (expands.pointer?_eq.trans plain) (expands.referenceFree known inner.2)
  | .array expands, distinct =>
    referenceFree_array (expands.referenceFree known (Json.distinctKeys_array.mp distinct))
  | .leaf noObject noArray, _ => referenceFree_leaf noObject noArray

theorem ExpandsItems.referenceFree (known : defs.Distinct) {path : List String}
    {items outs : List Json} :
    ExpandsItems defs path items outs → (∀ item ∈ items, item.DistinctKeys) →
      ∀ (index : Nat) out, outs[index]? = some out → ReferenceFree out
  | .nil, _, _, _, found => by cases found
  | .cons head tail, distinct, index, out, found => by
    obtain ⟨first, others⟩ := List.forall_mem_cons.mp distinct
    cases index with
    | zero =>
      obtain rfl := Option.some.inj found
      exact head.referenceFree known first
    | succ index => exact tail.referenceFree known others index out found

theorem ExpandsMembers.referenceFree (known : defs.Distinct) {path : List String}
    {members outs : Members} :
    ExpandsMembers defs path members outs → (∀ entry ∈ members, entry.2.DistinctKeys) →
      ∀ key out, Assoc.get? outs key = some out → ReferenceFree out
  | .nil, _, _, _, found => by cases found
  | .cons head tail, distinct, key, out, found => by
    obtain ⟨first, others⟩ := List.forall_mem_cons.mp distinct
    rw [Assoc.get?] at found
    split at found
    · obtain rfl := Option.some.inj found
      exact head.referenceFree known first
    · exact tail.referenceFree known others key out found

end

/-! ### Documents -/

/-- The entries of an expanded section are free of references. -/
theorem referenceFree_of_expandEntries (known : defs.Distinct)
    (distinct : (Json.object entries).DistinctKeys) (run : expandEntries defs entries = .ok outs)
    (found : Assoc.get? outs name = some out) : ReferenceFree out := by
  obtain ⟨value, hasEntry, expands⟩ := (aligned_expandEntries run).exists_left found
  exact expands.referenceFree known (distinct.member hasEntry)

/-- An expanded member of a document is free of references, or it is a section whose entries are. -/
theorem referenceFree_of_expandTop (known : defs.Distinct) (distinct : value.DistinctKeys)
    (run : expandTop defs key value = .ok out) :
    ReferenceFree out ∨ key ∈ sectionKeys ∧
      ∀ step child, out.child? step = some child → ReferenceFree child := by
  rcases exists_section_or_isPlain key value with ⟨inSections, entries, rfl⟩ | plain
  · obtain ⟨outs, runEntries, rfl⟩ := (expandTop_section inSections).mp run
    refine .inr ⟨inSections, fun step child isChild ↦ ?_⟩
    cases step with
    | member name => exact referenceFree_of_expandEntries known distinct runEntries isChild
    | item index => cases isChild
  · exact .inl (((expandTop_plain plain).mp run).referenceFree known distinct)

/-- Texts among the members of a document stay texts, and nothing else becomes one. -/
theorem text?_of_expandTop (run : expandTop defs key value = .ok out) :
    out.text? = value.text? := by
  rcases exists_section_or_isPlain key value with ⟨inSections, entries, rfl⟩ | plain
  · obtain ⟨outs, _, rfl⟩ := (expandTop_section inSections).mp run
    rfl
  · exact ((expandTop_plain plain).mp run).text?_eq

theorem pointer?_of_expandDocument (run : expandDocument defs members = .ok outs) :
    pointer? outs = pointer? members :=
  pointer?_eq_of_aligned (aligned_expandDocument run) fun _ _ ↦ text?_of_expandTop

/-- A document whose root is no reference becomes self-contained. -/
theorem selfContained_of_expandDocument (known : defs.Distinct)
    (distinct : (Json.object members).DistinctKeys) (plain : pointer? members = none)
    (run : expandDocument defs members = .ok outs) : SelfContained (.object outs) := by
  intro position inner atPosition noSection
  cases position with
  | nil =>
    cases atPosition
    rw [pointer?_of_expandDocument run, plain]
  | cons step rest =>
    obtain ⟨out, isChild, found⟩ := Json.exists_child?_of_at?_cons atPosition
    cases step with
    | item index => cases isChild
    | member key =>
      obtain ⟨value, hasMember, runValue⟩ := (aligned_expandDocument run).exists_left isChild
      have below := distinct.member hasMember
      rcases referenceFree_of_expandTop known below runValue with free | ⟨inSections, free⟩
      · exact free rest inner found
      · cases rest with
        | nil => exact absurd rfl (noSection key inSections)
        | cons step rest =>
          obtain ⟨child, isEntry, below⟩ := Json.exists_child?_of_at?_cons found
          exact free step child isEntry rest inner below

/-- Sections and other members keep distinct keys. -/
theorem distinctKeys_of_expandTop (known : defs.Distinct)
    (run : expandTop defs key value = .ok out) (distinct : value.DistinctKeys) :
    out.DistinctKeys := by
  rcases exists_section_or_isPlain key value with ⟨inSections, entries, rfl⟩ | plain
  · obtain ⟨outs, runEntries, rfl⟩ := (expandTop_section inSections).mp run
    exact Json.distinctKeys_of_aligned (aligned_expandEntries runEntries) distinct
      fun _ _ _ expands ↦ expands.distinctKeys known
  · exact ((expandTop_plain plain).mp run).distinctKeys known distinct

theorem distinctKeys_of_expandDocument (known : defs.Distinct)
    (distinct : (Json.object members).DistinctKeys) (run : expandDocument defs members = .ok outs) :
    (Json.object outs).DistinctKeys :=
  Json.distinctKeys_of_aligned (aligned_expandDocument run) distinct
    fun _ _ _ runValue ↦ distinctKeys_of_expandTop known runValue

/-! ### The root -/

theorem keys_sectionsIn_sublist (members : Members) :
    (Assoc.keys (sectionsIn members)).Sublist sectionKeys := by
  rw [sectionsIn, Assoc.keys, List.map_filterMap]
  induction sectionKeys with
  | nil => exact .slnil
  | cons key rest ih =>
    rw [List.filterMap_cons]
    cases Assoc.get? members key with
    | none => exact ih.cons key
    | some value => exact ih.cons_cons key

theorem mem_of_mem_sectionsIn {entry : String × Json} (h : entry ∈ sectionsIn members) :
    entry ∈ members := by
  obtain ⟨key, _, found⟩ := List.mem_filterMap.mp h
  obtain ⟨value, hasMember, rfl⟩ := Option.map_eq_some_iff.mp found
  exact Assoc.mem_of_get?_eq_some hasMember

/-- A replaced root is no reference: the pointer could only come from the expanded definition. -/
theorem openRoot_inlined (known : defs.Distinct) (distinct : (Json.object members).DistinctKeys)
    (replaced : referent defs path pointer = .ok (.inlined name target))
    (expands : Expands defs [name] target out) :
    pointer? (Assoc.putAll (sectionsIn members) (out.members?.getD [])) = none ∧
      (Json.object (Assoc.putAll (sectionsIn members) (out.members?.getD []))).DistinctKeys := by
  have targetKeys := known _ _ (referent_inlined replaced).1
  obtain ⟨targetMembers, rfl⟩ := exists_object_of_inlined replaced
  obtain ⟨outs, rfl⟩ := expands.exists_object
  have free := expands.referenceFree known targetKeys [] outs rfl
  obtain ⟨outsKeys, outsValues⟩ :=
    Json.distinctKeys_object.mp (expands.distinctKeys known targetKeys)
  have sections := keys_sectionsIn_sublist members
  constructor
  · have absent : Assoc.get? (sectionsIn members) referenceKey = none := by
      rw [Assoc.get?_eq_none_iff]
      intro isKey
      exact absurd (sections.subset isKey) (by decide)
    -- The expanded definition is free of references, at its own root too.
    rw [pointer?, Json.members?, Option.getD_some, Assoc.get?_putAll _ outsKeys, absent,
      Option.or_none]
    exact free
  · refine Json.distinctKeys_object.mpr ⟨?_, fun entry isEntry ↦ ?_⟩
    · apply Assoc.nodup_keys_putAll
      exact sections.nodup (by decide)
    · rcases Assoc.mem_putAll isEntry with old | new
      · exact (Json.distinctKeys_object.mp distinct).2 entry (mem_of_mem_sectionsIn old)
      · exact outsValues entry new

/-- The opened root is no reference. -/
theorem openRoot_plain (known : defs.Distinct) (distinct : (Json.object members).DistinctKeys)
    (run : openRoot defs members = .ok outs) :
    pointer? outs = none ∧ (Json.object outs).DistinctKeys := by
  unfold openRoot at run
  split at run
  · next plain =>
    obtain rfl := Except.ok.inj run
    exact ⟨plain, distinct⟩
  · next pointer reference =>
    obtain ⟨becomes, found, run⟩ := bind_eq_ok.mp run
    cases becomes with
    | inlined name target =>
      obtain ⟨out, runTarget, run⟩ := bind_eq_ok.mp run
      obtain rfl := pure_eq_ok.mp run
      exact openRoot_inlined known distinct found (expand_eq_ok_iff.mp runTarget)
    | dropped =>
      have expands := expandMembers_eq_ok_iff.mp run
      have left := distinct.erase referenceKey
      rw [Json.DistinctKeys] at left ⊢
      have plain := pointer?_siblings (Json.distinctKeys_object.mp distinct).1
      exact ⟨expands.pointer?_eq.trans plain, expands.aligned.keys_eq ▸ left.1,
        expands.distinctKeys known left.2⟩

/-- Resolving by definitions whose objects have distinct keys leaves no reference, and the keys in
the result are distinct again, so that positions reach all of its objects. -/
theorem selfContained_of_resolveWith (known : defs.Distinct) (distinct : document.DistinctKeys)
    (run : resolveWith defs document = .ok result) :
    result.DistinctKeys ∧ SelfContained result := by
  cases document with
  | object members =>
    obtain ⟨opened, runRoot, run⟩ := bind_eq_ok.mp run
    obtain ⟨outs, runDocument, run⟩ := bind_eq_ok.mp run
    obtain rfl := pure_eq_ok.mp run
    obtain ⟨plain, openedKeys⟩ := openRoot_plain known distinct runRoot
    exact ⟨distinctKeys_of_expandDocument known openedKeys runDocument,
      selfContained_of_expandDocument known openedKeys plain runDocument⟩
  | _ => cases run

/-- **No reference survives.** Whether the definitions are given or are those of the document, a
resolved document has no reference at any position but those of its two sections. -/
theorem no_reference_survives (distinct : document.DistinctKeys) :
    (∀ defs, Json.DistinctKeysMembers defs → resolveWith defs document = .ok result →
      result.DistinctKeys ∧ SelfContained result) ∧
    (resolve document = .ok result → result.DistinctKeys ∧ SelfContained result) := by
  constructor
  · intro defs given run
    have known : Definitions.Distinct defs := fun name target found ↦
      (Json.distinctKeysMembers_iff defs).mp given _ (Assoc.mem_of_get?_eq_some found)
    exact selfContained_of_resolveWith known distinct run
  · exact selfContained_of_resolveWith (distinct_definitionsOf distinct) distinct

/-- Nested references are both replaced. -/
theorem no_reference_survives_nested :
    resolve nestedReferences = .ok nestedExpanded ∧ nestedExpanded.DistinctKeys ∧
      SelfContained nestedExpanded :=
  ⟨resolve_nestedReferences,
    (no_reference_survives nestedReferences_distinct).2 resolve_nestedReferences⟩

end VerbForms.Schema
