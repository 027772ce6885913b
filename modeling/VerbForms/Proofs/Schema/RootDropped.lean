import VerbForms.Proofs.Schema.Coherence
import VerbForms.Proofs.Schema.Failure
import VerbForms.Proofs.Schema.OpenedRoot

/-!
# A dropped root

Where the root of a document is a reference to a definition of another type than object, its pointer
goes and all other members are expanded with nothing open, the sections like any other value. Without
the pointer the sections are expanded entry by entry, each entry with its own name open. To have a name
open only matters to an entry that comes back to it (`Expands.reopen`, `ComesTo.not_expands`). So the
pointer changes nothing unless a section looks like a reference or an entry of one comes back to its
own name (`dropped_root_agrees_iff`).
-/

namespace VerbForms.Schema

variable {defs : Definitions} {opened opened' path trail : List String} {value out result : Json}
variable {members entries outs : Members} {items : List Json} {key name next pointer : String}
variable {target : Json} {kind : Option String}

/-! ### Coming back to a name -/

/-- Following a pointer comes to a name: the pointer names it, or an alias that leads to it. -/
inductive LeadsTo (defs : Definitions) (name : String) : String → Prop where
  | here {pointer : String} (names : Names pointer name) : LeadsTo defs name pointer
  | along {pointer further next : String} {target : Json} (names : Names pointer next)
      (known : Assoc.get? defs next = some target) (untyped : declaredType target = none)
      (isAlias : reference? target = some further) (leads : LeadsTo defs name further) :
      LeadsTo defs name pointer

/-- The walk of a value comes to a reference that leads to a name. -/
def ComesTo (defs : Definitions) (opened : List String) (value : Json) (name : String) : Prop :=
  ∃ opened' part pointer, Walk defs opened value opened' part ∧ reference? part = some pointer ∧
    LeadsTo defs name pointer

theorem ComesTo.item {item : Json} (mem : item ∈ items) :
    ComesTo defs opened item name → ComesTo defs opened (.array items) name
  | ⟨opened', part, pointer, walk, found⟩ => ⟨opened', part, pointer, .item mem walk, found⟩

theorem ComesTo.member (plain : pointer? members = none) (mem : (key, value) ∈ members) :
    ComesTo defs opened value name → ComesTo defs opened (.object members) name
  | ⟨opened', part, pointer, walk, found⟩ => ⟨opened', part, pointer, .member plain mem walk, found⟩

theorem ComesTo.sibling (reference : pointer? members = some pointer)
    (scalar : referent defs path pointer = .ok .dropped) (mem : (key, value) ∈ siblings members) :
    ComesTo defs opened value name → ComesTo defs opened (.object members) name
  | ⟨opened', part, inner, walk, found⟩ =>
    have ⟨_, names, noObject⟩ := not_referentType_of_dropped scalar
    ⟨opened', part, inner, .sibling reference names noObject mem walk, found⟩

theorem ComesTo.definition (reference : pointer? members = some pointer)
    (replaced : referent defs path pointer = .ok (.inlined next target)) :
    ComesTo defs (opened ++ [next]) target name → ComesTo defs opened (.object members) name
  | ⟨opened', part, inner, walk, found⟩ =>
    have ⟨names, known, typed⟩ := referentType_of_inlined replaced
    ⟨opened', part, inner, .definition reference names known typed walk, found⟩

theorem ComesTo.reference (reference : pointer? members = some pointer)
    (leads : LeadsTo defs name pointer) : ComesTo defs opened (.object members) name :=
  ⟨opened, .object members, pointer, .here opened _, reference, leads⟩

/-! ### An open name -/

/-- Nothing that is open is closed along a walk. -/
theorem Walk.subset {part : Json} (walk : Walk defs opened value opened' part) :
    opened ⊆ opened' := by
  induction walk with
  | here => exact List.Subset.refl _
  | item _ _ ih => exact ih
  | member _ _ _ ih => exact ih
  | definition _ _ _ _ _ ih => exact List.Subset.trans (List.subset_append_left _ _) ih
  | sibling _ _ _ _ _ ih => exact ih

/-- A reference that leads to an open name is bad. -/
theorem LeadsTo.badReference (leads : LeadsTo defs name pointer) (isOpen : name ∈ opened) :
    BadReference defs opened pointer := by
  induction leads generalizing opened with
  | here names => exact .inl (.cyclic names isOpen)
  | along names known untyped isAlias _ ih =>
    refine .inr ⟨_, names, ?_⟩
    rcases ih (List.mem_append_left _ isOpen) with stuck | ⟨_, further, chain⟩
    · exact .here known untyped isAlias stuck
    · exact .further known untyped isAlias further chain

/-- What comes to an open name does not expand. -/
theorem ComesTo.not_expands (comes : ComesTo defs opened value name) (isOpen : name ∈ opened) :
    ¬ Expands defs opened value out := by
  obtain ⟨opened', part, pointer, walk, reference, leads⟩ := comes
  intro expands
  obtain ⟨_, partExpands⟩ := walk.exists_expands expands
  have bad : IsBad defs opened' part := ⟨pointer, reference, leads.badReference (walk.subset isOpen)⟩
  exact bad.not_expands partExpands

/-- A look-ahead that does not come to a name is the same with the name behind it. -/
theorem aliasType_cons (found : aliasType defs trail target = .ok kind)
    (apart : ∀ pointer, declaredType target = none → reference? target = some pointer →
      ¬ LeadsTo defs name pointer) : aliasType defs (name :: trail) target = .ok kind := by
  fun_induction aliasType defs trail target with
  | case1 trail target own declared => rw [aliasType_of_declaredType declared, found]
  | case2 trail target untyped noAlias => rw [aliasType, untyped, noAlias, found]
  | case3 => cases found
  | case4 => cases found
  | case5 => cases found
  | case6 trail target untyped pointer isAlias next named nextTarget known fresh ih =>
    have names := definitionName_eq_ok_iff.mp named
    have away := apart pointer untyped isAlias
    have freshToo : next ∉ name :: trail := by
      rw [List.mem_cons, not_or]
      exact ⟨fun same ↦ away (.here (same ▸ names)), fresh⟩
    rw [aliasType_of_reference untyped isAlias named known freshToo]
    exact ih found fun further untyped' isAlias' leads ↦
      away (.along names known untyped' isAlias' leads)

theorem referent_cons {becomes : Referent} (found : referent defs path pointer = .ok becomes)
    (away : ¬ LeadsTo defs name pointer) : referent defs (name :: path) pointer = .ok becomes := by
  obtain ⟨next, target, kind, named, known, fresh, typed, rfl⟩ := exists_aliasType_of_referent found
  have names := definitionName_eq_ok_iff.mp named
  have freshToo : next ∉ name :: path := by
    rw [List.mem_cons, not_or]
    exact ⟨fun same ↦ away (.here (same ▸ names)), fresh⟩
  refine referent_of_aliasType named known freshToo (aliasType_cons typed ?_)
  intro further untyped isAlias leads
  exact away (.along names known untyped isAlias leads)

mutual

/-- A value that does not come to a name expands alike with the name open. -/
theorem Expands.reopen {path : List String} {value out : Json} :
    Expands defs path value out → ¬ ComesTo defs (name :: path) value name →
      Expands defs (name :: path) value out
  | .inlined reference replaced expands, apart =>
    .inlined reference (referent_cons replaced fun leads ↦ apart (.reference reference leads))
      (expands.reopen fun comes ↦ apart (comes.definition reference replaced))
  | .dropped reference scalar expands, apart =>
    .dropped reference (referent_cons scalar fun leads ↦ apart (.reference reference leads))
      (expands.reopen fun _ _ mem comes ↦ apart (comes.sibling reference scalar mem))
  | .object plain expands, apart =>
    .object plain (expands.reopen fun _ _ mem comes ↦ apart (comes.member plain mem))
  | .array expands, apart => .array (expands.reopen fun _ mem comes ↦ apart (comes.item mem))
  | .leaf noObject noArray, _ => .leaf noObject noArray

theorem ExpandsItems.reopen {path : List String} {items outs : List Json} :
    ExpandsItems defs path items outs →
      (∀ item ∈ items, ¬ ComesTo defs (name :: path) item name) →
      ExpandsItems defs (name :: path) items outs
  | .nil, _ => .nil
  | .cons head tail, apart =>
    .cons (head.reopen (apart _ List.mem_cons_self))
      (tail.reopen fun item mem ↦ apart item (List.mem_cons_of_mem _ mem))

theorem ExpandsMembers.reopen {path : List String} {members outs : Members} :
    ExpandsMembers defs path members outs →
      (∀ key value, (key, value) ∈ members → ¬ ComesTo defs (name :: path) value name) →
      ExpandsMembers defs (name :: path) members outs
  | .nil, _ => .nil
  | .cons head tail, apart =>
    .cons (head.reopen (apart _ _ List.mem_cons_self))
      (tail.reopen fun key value mem ↦ apart key value (List.mem_cons_of_mem _ mem))

end

/-! ### Sections as values -/

/-- The sections of a document expand alike as values and entry by entry: none of them looks like a
reference, and none of their entries comes back to its own name. -/
structure SectionsAlike (document : Json) : Prop where
  tables : ∀ key ∈ sectionKeys, pointer? (sectionOf document key) = none
  apart : ∀ key ∈ sectionKeys, ∀ name value, (name, value) ∈ sectionOf document key →
    ¬ ComesTo (definitionsOf document) [name] value name

theorem expands_of_expandTop (alike : SectionsAlike (.object members))
    (distinct : (Json.object members).DistinctKeys) (mem : (key, value) ∈ members)
    (run : expandTop defs key value = .ok out) : Expands defs [] value out := by
  rcases exists_section_or_isPlain key value with ⟨inSections, entries, rfl⟩ | plain
  · obtain ⟨outs, runEntries, rfl⟩ := (expandTop_section inSections).mp run
    have table := alike.tables key inSections
    rw [sectionOf_eq_of_mem distinct mem] at table
    refine .object table (expandsMembers_iff.mpr ?_)
    exact (aligned_expandEntries runEntries).imp fun name _ _ _ expands ↦
      expands.mono (List.nil_subset [name])
  · exact (expandTop_plain plain).mp run

theorem expandTop_of_expands (alike : SectionsAlike (.object members))
    (distinct : (Json.object members).DistinctKeys) (mem : (key, value) ∈ members)
    (expands : Expands (definitionsOf (.object members)) [] value out) :
    expandTop (definitionsOf (.object members)) key value = .ok out := by
  rcases exists_section_or_isPlain key value with ⟨inSections, entries, rfl⟩ | plain
  · have table := alike.tables key inSections
    have apart := alike.apart key inSections
    rw [sectionOf_eq_of_mem distinct mem] at table apart
    obtain ⟨outs, membersExpand, rfl⟩ := (expands_plain_iff table).mp expands
    refine (expandTop_section inSections).mpr ⟨outs, expandEntries_eq_ok_iff.mpr ?_, rfl⟩
    exact membersExpand.aligned.imp fun name value _ isEntry entryExpands ↦
      entryExpands.reopen (apart name value isEntry)
  · exact (expandTop_plain plain).mpr expands

/-- Where the sections expand alike, the members expand as values to what they expand to in the
document. -/
theorem SectionsAlike.expandDocument_iff (alike : SectionsAlike (.object members))
    (distinct : (Json.object members).DistinctKeys) :
    expandDocument (definitionsOf (.object members)) members = .ok outs ↔
      ExpandsMembers (definitionsOf (.object members)) [] members outs := by
  rw [expandDocument_eq_ok_iff, expandsMembers_iff]
  constructor
  · intro aligned
    exact aligned.imp fun _ _ _ mem run ↦ expands_of_expandTop alike distinct mem run
  · intro aligned
    exact aligned.imp fun _ _ _ mem expands ↦ expandTop_of_expands alike distinct mem expands

theorem member?_or_sectionOf_eq_nil (document : Json) (key : String) :
    document.member? key = some (.object (sectionOf document key)) ∨ sectionOf document key = [] := by
  rw [sectionOf]
  cases document.member? key with
  | none => exact .inr rfl
  | some value =>
    cases value with
    | object entries => exact .inl rfl
    | _ => exact .inr rfl

/-- Sections that expand to the same in both ways expand alike. -/
theorem sectionsAlike_of_expand (distinct : (Json.object members).DistinctKeys)
    (run : expandDocument (definitionsOf (.object members)) members = .ok outs)
    (expands : ExpandsMembers (definitionsOf (.object members)) [] members outs) :
    SectionsAlike (.object members) := by
  constructor
  · intro key inSections
    rcases member?_or_sectionOf_eq_nil (.object members) key with found | empty
    · obtain ⟨_, foundOut, runSection⟩ := (aligned_expandDocument run).exists_right found
      obtain ⟨entriesOut, runEntries, rfl⟩ := (expandTop_section inSections).mp runSection
      obtain ⟨out, foundOut', sectionExpands⟩ := expands.aligned.exists_right found
      obtain rfl := Option.some.inj (foundOut.symm.trans foundOut')
      -- As a value the section has become free of references, as a section it has kept its texts.
      have free := sectionExpands.referenceFree (distinct_definitionsOf distinct)
        (distinct.member found)
      have sameTexts := pointer?_eq_of_aligned (aligned_expandEntries runEntries)
        fun _ _ entryExpands ↦ entryExpands.text?_eq
      exact sameTexts.symm.trans free.plain
    · rw [empty]
      rfl
  · intro key inSections name value mem comes
    rcases member?_or_sectionOf_eq_nil (.object members) key with found | empty
    · obtain ⟨_, _, runSection⟩ := (aligned_expandDocument run).exists_right found
      obtain ⟨_, runEntries, _⟩ := (expandTop_section inSections).mp runSection
      obtain ⟨_, entryExpands⟩ := (aligned_expandEntries runEntries).exists_of_mem mem
      exact comes.not_expands List.mem_cons_self entryExpands
    · rw [empty] at mem
      cases mem

/-! ### The pointer at the root -/

theorem sectionOf_siblings (inSections : key ∈ sectionKeys) :
    sectionOf (.object (siblings members)) key = sectionOf (.object members) key := by
  have other : referenceKey ≠ key := by
    rintro rfl
    exact absurd inSections (by decide)
  rw [sectionOf, sectionOf, Json.member?, Json.member?, siblings, Assoc.get?_erase_of_ne other]

/-- The pointer at the root is no part of the definitions. -/
theorem definitionsOf_siblings :
    definitionsOf (.object (siblings members)) = definitionsOf (.object members) := by
  have first : sectionOf (.object (siblings members)) "definitions" = _ :=
    sectionOf_siblings (by decide)
  have second : sectionOf (.object (siblings members)) "$defs" = _ := sectionOf_siblings (by decide)
  simp only [definitionsOf, sectionKeys, List.foldl_cons, List.foldl_nil, first, second]

/-- Only the sections of a document matter to how they expand. -/
theorem SectionsAlike.of_sections {document other : Json} (alike : SectionsAlike document)
    (same : ∀ key ∈ sectionKeys, sectionOf other key = sectionOf document key)
    (sameDefinitions : definitionsOf other = definitionsOf document) : SectionsAlike other := by
  constructor
  · intro key inSections
    rw [same key inSections]
    exact alike.tables key inSections
  · intro key inSections
    rw [same key inSections, sameDefinitions]
    exact alike.apart key inSections

theorem sectionsAlike_siblings :
    SectionsAlike (.object (siblings members)) ↔ SectionsAlike (.object members) := by
  constructor
  · intro alike
    exact alike.of_sections (fun _ inSections ↦ (sectionOf_siblings inSections).symm)
      definitionsOf_siblings.symm
  · intro alike
    exact alike.of_sections (fun _ ↦ sectionOf_siblings) definitionsOf_siblings

/-- A document whose root is dropped resolves to its other members, each expanded as a value: what
they expand to is free of references, so it stays as it is. -/
theorem resolveWith_dropped_iff (known : defs.Distinct)
    (distinct : (Json.object members).DistinctKeys) (reference : pointer? members = some pointer)
    (scalar : referent defs [] pointer = .ok .dropped) :
    resolveWith defs (.object members) = .ok result ↔
      ∃ outs, ExpandsMembers defs [] (siblings members) outs ∧ Json.object outs = result := by
  have same {opened : Members} (runRoot : openRoot defs members = .ok opened) :
      expandDocument defs opened = .ok opened := by
    have openedKeys := (openRoot_plain known distinct runRoot).2
    refine expandDocument_self fun entry mem ↦ ?_
    have free := referenceFree_of_dropped known distinct reference scalar runRoot mem
    exact free.expandTop ((Json.distinctKeys_object.mp openedKeys).2 entry mem) entry.1
  rw [resolveWith, bind_eq_ok]
  simp only [bind_eq_ok, pure_eq_ok]
  constructor
  · rintro ⟨opened, runRoot, outs, runDocument, rfl⟩
    obtain rfl := Except.ok.inj ((same runRoot).symm.trans runDocument)
    exact ⟨_, (openRoot_dropped_iff reference scalar).mp runRoot, rfl⟩
  · rintro ⟨outs, expands, rfl⟩
    have runRoot := (openRoot_dropped_iff reference scalar).mpr expands
    exact ⟨outs, runRoot, outs, same runRoot, rfl⟩

/-- Where a definition expands with its own name open, the look-ahead from it succeeds. -/
theorem Expands.exists_aliasType (expands : Expands defs trail target out) :
    ∃ kind, aliasType defs trail target = .ok kind := by
  cases declared : declaredType target with
  | some kind => exact ⟨_, aliasType_of_declaredType declared trail⟩
  | none =>
    cases isAlias : reference? target with
    | none =>
      refine ⟨none, ?_⟩
      rw [aliasType, declared, isAlias]
    | some pointer =>
      obtain ⟨becomes, decided⟩ := expands.exists_referent isAlias
      obtain ⟨next, nextTarget, kind, named, known, fresh, typed, _⟩ :=
        exists_aliasType_of_referent decided
      exact ⟨kind, (aliasType_of_reference declared isAlias named known fresh).trans typed⟩

/-- Two runs agree: both give the same result, or both fail. -/
def Agree (run run' : Except SchemaError Json) : Prop :=
  (∃ result, run = .ok result ∧ run' = .ok result) ∨ ∃ e e', run = .error e ∧ run' = .error e'

theorem agree_of_iff {run run' : Except SchemaError Json}
    (same : ∀ result, run = .ok result ↔ run' = .ok result) : Agree run run' := by
  cases run with
  | ok result => exact .inl ⟨result, rfl, (same result).mp rfl⟩
  | error e =>
    cases run' with
    | ok result => cases (same result).mpr rfl
    | error e' => exact .inr ⟨e, e', rfl, rfl⟩

theorem resolve_siblings_iff (distinct : (Json.object members).DistinctKeys) :
    resolve (.object (siblings members)) = .ok result ↔
      ∃ outs, expandDocument (definitionsOf (.object (siblings members))) (siblings members) =
        .ok outs ∧ Json.object outs = result :=
  resolveWith_eq_ok_iff_of_plain (pointer?_siblings (Json.distinctKeys_object.mp distinct).1)

theorem expandsMembers_of_resolve (distinct : (Json.object members).DistinctKeys)
    (reference : pointer? members = some pointer) (names : Names pointer name)
    (scalar : ¬ ReferentType (definitionsOf (.object members)) name (some objectType))
    (run : resolve (.object members) = .ok result) :
    ∃ outs, ExpandsMembers (definitionsOf (.object (siblings members))) [] (siblings members) outs ∧
      Json.object outs = result := by
  obtain ⟨opened, runRoot, _⟩ := bind_eq_ok.mp run
  obtain ⟨becomes, decided⟩ := exists_referent_of_openRoot reference runRoot
  obtain rfl := eq_dropped_of_not_referentType decided names scalar
  rw [definitionsOf_siblings]
  exact (resolveWith_dropped_iff (distinct_definitionsOf distinct) distinct reference decided).mp run

/-- The definition that a dropped root names has expanded with its own name open, so it is decided
what becomes of the root. -/
theorem referent_dropped_of_expandDocument (distinct : (Json.object members).DistinctKeys)
    (names : Names pointer name)
    (known : Assoc.get? (definitionsOf (.object members)) name = some target)
    (scalar : ¬ ReferentType (definitionsOf (.object members)) name (some objectType))
    (run : expandDocument (definitionsOf (.object members)) members = .ok outs) :
    referent (definitionsOf (.object members)) [] pointer = .ok .dropped := by
  obtain ⟨key, inSections, entries, hasSection, found⟩ :=
    exists_entry_of_get?_definitionsOf distinct known
  obtain ⟨out, expands, _⟩ := exists_entry_at? run inSections hasSection found []
  obtain ⟨kind, typed⟩ := expands.exists_aliasType
  have named := definitionName_eq_ok_iff.mpr names
  have decided := referent_of_aliasType named known List.not_mem_nil typed
  rw [decided, eq_dropped_of_not_referentType decided names scalar]

/-- Where the sections expand alike, the pointer at the root makes no difference to the result. -/
theorem SectionsAlike.resolve_eq_ok_iff (alike : SectionsAlike (.object members))
    (distinct : (Json.object members).DistinctKeys) (reference : pointer? members = some pointer)
    (names : Names pointer name)
    (known : Assoc.get? (definitionsOf (.object members)) name = some target)
    (scalar : ¬ ReferentType (definitionsOf (.object members)) name (some objectType)) :
    resolve (.object members) = .ok result ↔
      resolve (.object (siblings members)) = .ok result := by
  have distinct' : (Json.object (siblings members)).DistinctKeys := distinct.erase referenceKey
  have alike' := sectionsAlike_siblings.mpr alike
  constructor
  · intro run
    obtain ⟨outs, expands, rfl⟩ := expandsMembers_of_resolve distinct reference names scalar run
    have runDocument := (alike'.expandDocument_iff distinct').mpr expands
    exact (resolve_siblings_iff distinct).mpr ⟨outs, runDocument, rfl⟩
  · intro run
    obtain ⟨outs, runDocument, rfl⟩ := (resolve_siblings_iff distinct).mp run
    have expands := (alike'.expandDocument_iff distinct').mp runDocument
    rw [← definitionsOf_siblings] at known scalar
    have decided := referent_dropped_of_expandDocument distinct' names known scalar runDocument
    rw [definitionsOf_siblings] at decided expands
    have isKnown := distinct_definitionsOf distinct
    exact (resolveWith_dropped_iff isKnown distinct reference decided).mpr ⟨outs, expands, rfl⟩

/-- **A dropped root changes nothing where the sections expand alike.** A document whose root is a
reference to a definition of another type than object resolves like the document without the pointer,
to the same result or to none, if its sections expand alike as values and entry by entry. If they do
not, the two agree only by both failing. -/
theorem dropped_root_agrees_iff (distinct : (Json.object members).DistinctKeys)
    (reference : pointer? members = some pointer) (names : Names pointer name)
    (known : Assoc.get? (definitionsOf (.object members)) name = some target)
    (scalar : ¬ ReferentType (definitionsOf (.object members)) name (some objectType)) :
    Agree (resolve (.object members)) (resolve (.object (siblings members))) ↔
      SectionsAlike (.object members) ∨
        ∃ e e', resolve (.object members) = .error e ∧
          resolve (.object (siblings members)) = .error e' := by
  have distinct' : (Json.object (siblings members)).DistinctKeys := distinct.erase referenceKey
  constructor
  · rintro (⟨result, run, run'⟩ | failed)
    · obtain ⟨outs, expands, rfl⟩ := expandsMembers_of_resolve distinct reference names scalar run
      obtain ⟨outs', runDocument, same⟩ := (resolve_siblings_iff distinct).mp run'
      obtain rfl := Json.object.inj same
      exact .inl (sectionsAlike_siblings.mp (sectionsAlike_of_expand distinct' runDocument expands))
    · exact .inr failed
  · rintro (alike | failed)
    · exact agree_of_iff fun result ↦
        alike.resolve_eq_ok_iff distinct reference names known scalar
    · exact .inr failed

/-! ### Entries that come back and entries that do not -/

/-- The walk of a value that is free of references stays in it. -/
theorem Walk.referenceFree {part : Json} (walk : Walk defs opened value opened' part)
    (distinct : value.DistinctKeys) (free : ReferenceFree value) : ReferenceFree part := by
  induction walk with
  | here => exact free
  | item mem _ ih => exact ih (Json.distinctKeys_array.mp distinct _ mem) (free.item mem)
  | member _ mem _ ih =>
    exact ih ((Json.distinctKeys_object.mp distinct).2 _ mem) (free.member distinct mem)
  | definition reference => cases free.plain.symm.trans reference
  | sibling reference => cases free.plain.symm.trans reference

theorem ReferenceFree.not_comesTo (free : ReferenceFree value) (distinct : value.DistinctKeys) :
    ¬ ComesTo defs opened value name := by
  rintro ⟨opened', part, pointer, walk, reference, _⟩
  rw [(walk.referenceFree distinct free).root] at reference
  cases reference

/-- A root reference to a word, beside the definition of the word, which has these members. -/
def wordReference (more : Members) : Members :=
  [("$ref", .text "#/$defs/word"),
    ("$defs", .object [("word", .object (("type", .text "string") :: more))])]

/-- A reference back to the word. -/
def backToWord : Members := [("next", .object [("$ref", .text "#/$defs/word")])]

theorem names_word : Names "#/$defs/word" "word" := definitionName_eq_ok_iff.mp (by decide)

private theorem not_referentType_word (more : Members) :
    ¬ ReferentType (definitionsOf (.object (wordReference more))) "word" (some objectType) := by
  have declared : ReferentType (definitionsOf (.object (wordReference more))) "word" (some "string") :=
    .declared rfl rfl
  intro typed
  exact absurd (typed.unique declared) (by decide)

private theorem referent_word (more : Members) :
    referent (definitionsOf (.object (wordReference more))) [] "#/$defs/word" = .ok .dropped := by
  have typed : aliasType (definitionsOf (.object (wordReference more))) ([] ++ ["word"])
      (.object (("type", .text "string") :: more)) = .ok (some "string") :=
    aliasType_of_declaredType rfl _
  have named := definitionName_eq_ok_iff.mpr names_word
  rw [referent_of_aliasType named rfl List.not_mem_nil typed, if_neg (by decide)]

private theorem resolve_backToWord : resolve (.object (wordReference backToWord)) =
    .ok (.object [("$defs", .object [("word", .object
      [("type", .text "string"), ("next", .object [])])])]) := by
  have distinct : (Json.object (wordReference backToWord)).DistinctKeys := by
    simp [wordReference, backToWord, Json.DistinctKeys, Json.DistinctKeysMembers, Assoc.keys]
  have next : Expands (definitionsOf (.object (wordReference backToWord))) []
      (.object [("$ref", .text "#/$defs/word")]) (.object []) :=
    .dropped rfl (referent_word backToWord) .nil
  have word : Expands (definitionsOf (.object (wordReference backToWord))) []
      (.object (("type", .text "string") :: backToWord))
      (.object [("type", .text "string"), ("next", .object [])]) :=
    .object rfl (.cons (expands_text _ _) (.cons next .nil))
  have known := distinct_definitionsOf distinct
  refine (resolveWith_dropped_iff known distinct rfl (referent_word backToWord)).mpr ⟨_, ?_, rfl⟩
  exact .cons (.object rfl (.cons word .nil)) .nil

private theorem resolve_siblings_backToWord :
    resolve (.object (siblings (wordReference backToWord))) =
      .error (.cyclic "#/$defs/word" ["word", "word"]) := by
  have refused : referent (definitionsOf (.object (siblings (wordReference backToWord)))) ["word"]
      "#/$defs/word" = .error (.cyclic "#/$defs/word" ["word", "word"]) :=
    referent_of_open (definitionName_eq_ok_iff.mpr names_word) rfl List.mem_cons_self
  exact resolveWith_eq_error_of_entry rfl (by decide)
    (.object rfl (.tail (expands_text _ _) (.head (.reference rfl refused))))

/-- The entry that comes back to its own name is a cycle only without the pointer at the root. -/
theorem exists_dropped_root_with_effect :
    ¬ ReferentType (definitionsOf (.object (wordReference backToWord))) "word" (some objectType) ∧
      resolve (.object (wordReference backToWord)) =
        .ok (.object [("$defs", .object [("word", .object
          [("type", .text "string"), ("next", .object [])])])]) ∧
      resolve (.object (siblings (wordReference backToWord))) =
        .error (.cyclic "#/$defs/word" ["word", "word"]) ∧
      ¬ Agree (resolve (.object (wordReference backToWord)))
        (resolve (.object (siblings (wordReference backToWord)))) := by
  refine ⟨not_referentType_word backToWord, resolve_backToWord, resolve_siblings_backToWord, ?_⟩
  rw [resolve_backToWord, resolve_siblings_backToWord]
  rintro (⟨result, _, fails⟩ | ⟨e, e', fails, _⟩)
  · cases fails
  · cases fails

/-- A word without references is dropped at the root without further effect. -/
theorem wordReference_agrees :
    Agree (resolve (.object (wordReference []))) (resolve (.object (siblings (wordReference [])))) := by
  have distinct : (Json.object (wordReference [])).DistinctKeys := by
    simp [wordReference, Json.DistinctKeys, Json.DistinctKeysMembers, Assoc.keys]
  have wordKeys : (Json.object [("type", .text "string")]).DistinctKeys := by
    simp [Json.DistinctKeys, Json.DistinctKeysMembers, Assoc.keys]
  have free : ReferenceFree (.object [("type", .text "string")]) :=
    referenceFree_single rfl (referenceFree_text _)
  have alike : SectionsAlike (.object (wordReference [])) := by
    constructor
    · decide
    · intro key inSections name value mem
      rcases List.mem_pair.mp inSections with rfl | rfl
      · cases mem
      · obtain ⟨rfl, rfl⟩ := Prod.mk.inj (List.mem_singleton.mp mem)
        exact free.not_comesTo wordKeys
  exact (dropped_root_agrees_iff distinct rfl names_word rfl (not_referentType_word [])).mpr
    (.inl alike)

end VerbForms.Schema
