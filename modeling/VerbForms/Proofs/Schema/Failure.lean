import VerbForms.Proofs.Schema.BadReference
import VerbForms.Proofs.Schema.Document

/-!
# Where resolving fails

A walk goes through the values of a document and through the definitions that replace references, and
knows at each value which definitions are open. Resolving fails exactly on the documents whose walk
meets a bad reference: expansion either succeeds or meets one (`expands_or_meets`), and every value
that the walk of an expanding value comes to expands as well (`Walk.exists_expands`).
-/

namespace VerbForms.Schema

variable {defs : Definitions} {opened opened' : List String} {value part out : Json}
variable {members outs entries : Members} {items : List Json} {key name pointer : String}

/-- The walk of a value comes to a part, each with its open definitions. At a reference it continues
in the definition, if that is of object type, and else in what the reference declares besides. -/
inductive Walk (defs : Definitions) : List String → Json → List String → Json → Prop where
  | here (opened : List String) (value : Json) : Walk defs opened value opened value
  | item {opened opened' : List String} {items : List Json} {item part : Json}
      (mem : item ∈ items) (walk : Walk defs opened item opened' part) :
      Walk defs opened (.array items) opened' part
  | member {opened opened' : List String} {members : Members} {key : String} {value part : Json}
      (plain : pointer? members = none) (mem : (key, value) ∈ members)
      (walk : Walk defs opened value opened' part) : Walk defs opened (.object members) opened' part
  | definition {opened opened' : List String} {members : Members} {pointer name : String}
      {target part : Json} (reference : pointer? members = some pointer)
      (names : Names pointer name) (known : Assoc.get? defs name = some target)
      (typed : ReferentType defs name (some objectType))
      (walk : Walk defs (opened ++ [name]) target opened' part) :
      Walk defs opened (.object members) opened' part
  | sibling {opened opened' : List String} {members : Members} {pointer name key : String}
      {value part : Json} (reference : pointer? members = some pointer)
      (names : Names pointer name) (scalar : ¬ ReferentType defs name (some objectType))
      (mem : (key, value) ∈ siblings members) (walk : Walk defs opened value opened' part) :
      Walk defs opened (.object members) opened' part

/-- The walk of a document starts at the entries of its sections, each with its own name open, and at
its other members with nothing open. A section itself is a table of names and no reference. -/
inductive DocumentWalk (defs : Definitions) (members : Members) : List String → Json → Prop where
  | entry {opened : List String} {key name : String} {entries : Members} {value part : Json}
      (inSections : key ∈ sectionKeys) (hasSection : (key, Json.object entries) ∈ members)
      (mem : (name, value) ∈ entries) (walk : Walk defs [name] value opened part) :
      DocumentWalk defs members opened part
  | member {opened : List String} {key : String} {value part : Json} (mem : (key, value) ∈ members)
      (plain : IsPlain key value) (walk : Walk defs [] value opened part) :
      DocumentWalk defs members opened part

/-- A value that is a bad reference. -/
def IsBad (defs : Definitions) (opened : List String) (value : Json) : Prop :=
  ∃ pointer, reference? value = some pointer ∧ BadReference defs opened pointer

/-- The walk of a value comes to a bad reference. -/
def Meets (defs : Definitions) (opened : List String) (value : Json) : Prop :=
  ∃ opened' part, Walk defs opened value opened' part ∧ IsBad defs opened' part

/-- The walk of a document comes to a bad reference. -/
def DocumentMeets (defs : Definitions) (members : Members) : Prop :=
  ∃ opened part, DocumentWalk defs members opened part ∧ IsBad defs opened part

/-! ### Expansion fails only on bad references -/

theorem Meets.item {item : Json} (mem : item ∈ items) :
    Meets defs opened item → Meets defs opened (.array items)
  | ⟨opened', part, walk, bad⟩ => ⟨opened', part, .item mem walk, bad⟩

theorem Meets.member (plain : pointer? members = none) (mem : (key, value) ∈ members) :
    Meets defs opened value → Meets defs opened (.object members)
  | ⟨opened', part, walk, bad⟩ => ⟨opened', part, .member plain mem walk, bad⟩

theorem Meets.sibling (reference : pointer? members = some pointer)
    (scalar : referent defs opened pointer = .ok .dropped) (mem : (key, value) ∈ siblings members) :
    Meets defs opened value → Meets defs opened (.object members)
  | ⟨opened', part, walk, bad⟩ =>
    have ⟨_, names, noObject⟩ := not_referentType_of_dropped scalar
    ⟨opened', part, .sibling reference names noObject mem walk, bad⟩

theorem Meets.definition {target : Json} (reference : pointer? members = some pointer)
    (replaced : referent defs opened pointer = .ok (.inlined name target)) :
    Meets defs (opened ++ [name]) target → Meets defs opened (.object members)
  | ⟨opened', part, walk, bad⟩ =>
    have ⟨names, known, typed⟩ := referentType_of_inlined replaced
    ⟨opened', part, .definition reference names known typed walk, bad⟩

theorem Meets.of_referent {e : SchemaError} (reference : pointer? members = some pointer)
    (failed : referent defs opened pointer = .error e) : Meets defs opened (.object members) :=
  ⟨opened, .object members, .here opened _, pointer, reference, badReference_of_referent failed⟩

private theorem runs_or_meets (defs : Definitions) :
    (∀ opened value, (∃ out, Expands defs opened value out) ∨ Meets defs opened value) ∧
    (∀ opened items, (∃ outs, ExpandsItems defs opened items outs) ∨
      ∃ item ∈ items, Meets defs opened item) ∧
    (∀ opened members, (∃ outs, ExpandsMembers defs opened members outs) ∨
      ∃ entry ∈ members, Meets defs opened entry.2) := by
  apply expand.mutual_induct
  case case1 =>
    intro opened members pointer reference e failed
    exact .inr (.of_referent reference failed)
  case case2 =>
    intro opened members pointer reference name target replaced ih
    refine ih.imp ?_ (Meets.definition reference replaced)
    rintro ⟨out, expands⟩
    exact ⟨out, .inlined reference replaced expands⟩
  case case3 =>
    intro opened members pointer reference scalar ih
    refine ih.imp ?_ ?_
    · rintro ⟨outs, expands⟩
      exact ⟨_, .dropped reference scalar expands⟩
    · rintro ⟨entry, mem, meets⟩
      exact meets.sibling reference scalar mem
  case case4 =>
    intro opened members plain ih
    refine ih.imp ?_ ?_
    · rintro ⟨outs, expands⟩
      exact ⟨_, .object plain expands⟩
    · rintro ⟨entry, mem, meets⟩
      exact meets.member plain mem
  case case5 =>
    intro opened items ih
    refine ih.imp ?_ ?_
    · rintro ⟨outs, expands⟩
      exact ⟨_, .array expands⟩
    · rintro ⟨item, mem, meets⟩
      exact meets.item mem
  case case6 =>
    intro opened value noObject noArray
    exact .inl ⟨value, .leaf noObject noArray⟩
  case case7 =>
    intro opened
    exact .inl ⟨[], .nil⟩
  case case8 =>
    intro opened item rest ihItem ihRest
    rcases ihItem with ⟨out, head⟩ | meets
    · refine ihRest.imp ?_ ?_
      · rintro ⟨outs, tail⟩
        exact ⟨_, .cons head tail⟩
      · rintro ⟨other, mem, meets⟩
        exact ⟨other, List.mem_cons_of_mem item mem, meets⟩
    · exact .inr ⟨item, List.mem_cons_self, meets⟩
  case case9 =>
    intro opened
    exact .inl ⟨[], .nil⟩
  case case10 =>
    intro opened key value rest ihValue ihRest
    rcases ihValue with ⟨out, head⟩ | meets
    · refine ihRest.imp ?_ ?_
      · rintro ⟨outs, tail⟩
        exact ⟨_, .cons head tail⟩
      · rintro ⟨other, mem, meets⟩
        exact ⟨other, List.mem_cons_of_mem _ mem, meets⟩
    · exact .inr ⟨(key, value), List.mem_cons_self, meets⟩

/-- A value expands, or its walk comes to a bad reference. -/
theorem expands_or_meets (defs : Definitions) (opened : List String) (value : Json) :
    (∃ out, Expands defs opened value out) ∨ Meets defs opened value :=
  (runs_or_meets defs).1 opened value

/-! ### The walk of a value that expands -/

theorem ExpandsItems.exists_of_mem {outs : List Json} {item : Json}
    (expands : ExpandsItems defs opened items outs) (mem : item ∈ items) :
    ∃ out, Expands defs opened item out := by
  obtain ⟨index, found⟩ := List.mem_iff_getElem?.mp mem
  obtain ⟨out, _, head⟩ := expands.exists_child? found
  exact ⟨out, head⟩

theorem ExpandsMembers.exists_of_mem (expands : ExpandsMembers defs opened members outs)
    (mem : (key, value) ∈ members) : ∃ out, Expands defs opened value out :=
  expands.aligned.exists_of_mem mem

/-- A reference to a definition of object type expands only if it is replaced. -/
theorem Expands.of_objectType {target : Json} (expands : Expands defs opened (.object members) out)
    (reference : pointer? members = some pointer) (names : Names pointer name)
    (known : Assoc.get? defs name = some target)
    (typed : ReferentType defs name (some objectType)) :
    Expands defs (opened ++ [name]) target out := by
  cases expands with
  | inlined reference' replaced expands =>
    obtain rfl := Option.some.inj (reference.symm.trans reference')
    obtain ⟨names', known', _⟩ := referentType_of_inlined replaced
    obtain rfl := names.unique names'
    obtain rfl := Option.some.inj (known.symm.trans known')
    exact expands
  | dropped reference' scalar _ =>
    obtain rfl := Option.some.inj (reference.symm.trans reference')
    obtain ⟨_, names', noObject⟩ := not_referentType_of_dropped scalar
    exact absurd (names.unique names' ▸ typed) noObject
  | object plain _ =>
    rw [reference] at plain
    cases plain
  | leaf noObject _ => exact absurd rfl (noObject members)

/-- A reference to any other definition expands only if it is dropped. -/
theorem Expands.of_scalarType (expands : Expands defs opened (.object members) out)
    (reference : pointer? members = some pointer) (names : Names pointer name)
    (scalar : ¬ ReferentType defs name (some objectType)) :
    ∃ outs, ExpandsMembers defs opened (siblings members) outs := by
  cases expands with
  | inlined reference' replaced _ =>
    obtain rfl := Option.some.inj (reference.symm.trans reference')
    obtain ⟨names', _, typed⟩ := referentType_of_inlined replaced
    exact absurd (names.unique names' ▸ typed) scalar
  | dropped _ _ expands => exact ⟨_, expands⟩
  | object plain _ =>
    rw [reference] at plain
    cases plain
  | leaf noObject _ => exact absurd rfl (noObject members)

/-- All that the walk of an expanding value comes to expands with its own open definitions. -/
theorem Walk.exists_expands (walk : Walk defs opened value opened' part)
    (expands : Expands defs opened value out) : ∃ partOut, Expands defs opened' part partOut := by
  induction walk generalizing out with
  | here => exact ⟨out, expands⟩
  | item mem _ ih =>
    cases expands with
    | leaf _ noArray => exact absurd rfl (noArray _)
    | array itemsExpand =>
      obtain ⟨_, itemExpands⟩ := itemsExpand.exists_of_mem mem
      exact ih itemExpands
  | member plain mem _ ih =>
    obtain ⟨_, membersExpand, _⟩ := (expands_plain_iff plain).mp expands
    obtain ⟨_, memberExpands⟩ := membersExpand.exists_of_mem mem
    exact ih memberExpands
  | definition reference names known typed _ ih =>
    exact ih (expands.of_objectType reference names known typed)
  | sibling reference names scalar mem _ ih =>
    obtain ⟨_, siblingsExpand⟩ := expands.of_scalarType reference names scalar
    obtain ⟨_, siblingExpands⟩ := siblingsExpand.exists_of_mem mem
    exact ih siblingExpands

/-- A bad reference does not expand. -/
theorem IsBad.not_expands (bad : IsBad defs opened value) : ¬ Expands defs opened value out := by
  obtain ⟨pointer, reference, bad⟩ := bad
  intro expands
  obtain ⟨_, decided⟩ := expands.exists_referent reference
  exact not_badReference_of_referent decided bad

/-! ### Documents -/

private theorem expandEntries_or_meets (defs : Definitions) (entries : Members) :
    (∃ outs, expandEntries defs entries = .ok outs) ∨
      ∃ name value, (name, value) ∈ entries ∧ Meets defs [name] value := by
  induction entries with
  | nil => exact .inl ⟨[], rfl⟩
  | cons head rest ih =>
    obtain ⟨name, value⟩ := head
    rcases expands_or_meets defs [name] value with ⟨out, expands⟩ | meets
    · refine ih.imp ?_ ?_
      · rintro ⟨outs, run⟩
        exact ⟨_, expandEntries_cons_eq_ok_iff.mpr ⟨out, expands, outs, run, rfl⟩⟩
      · rintro ⟨other, value, mem, meets⟩
        exact ⟨other, value, List.mem_cons_of_mem _ mem, meets⟩
    · exact .inr ⟨name, value, List.mem_cons_self, meets⟩

private theorem expandTop_or_meets (defs : Definitions) (mem : (key, value) ∈ members) :
    (∃ out, expandTop defs key value = .ok out) ∨ DocumentMeets defs members := by
  rcases exists_section_or_isPlain key value with ⟨inSections, entries, rfl⟩ | plain
  · refine (expandEntries_or_meets defs entries).imp ?_ ?_
    · rintro ⟨outs, run⟩
      exact ⟨_, (expandTop_section inSections).mpr ⟨outs, run, rfl⟩⟩
    · rintro ⟨name, value, isEntry, opened, part, walk, bad⟩
      exact ⟨opened, part, .entry inSections mem isEntry walk, bad⟩
  · refine (expands_or_meets defs [] value).imp ?_ ?_
    · rintro ⟨out, expands⟩
      exact ⟨out, (expandTop_plain plain).mpr expands⟩
    · rintro ⟨opened, part, walk, bad⟩
      exact ⟨opened, part, .member mem plain walk, bad⟩

/-- The members of a document expand, or its walk comes to a bad reference. -/
theorem expandDocument_or_meets (defs : Definitions) (members : Members) :
    (∃ outs, expandDocument defs members = .ok outs) ∨ DocumentMeets defs members := by
  suffices ∀ rest ⊆ members,
      (∃ outs, expandDocument defs rest = .ok outs) ∨ DocumentMeets defs members from
    this members (List.Subset.refl members)
  intro rest inDocument
  induction rest with
  | nil => exact .inl ⟨[], rfl⟩
  | cons head rest ih =>
    obtain ⟨isMember, inDocument⟩ := List.cons_subset.mp inDocument
    rcases expandTop_or_meets defs isMember with ⟨out, run⟩ | meets
    · refine (ih inDocument).imp_left ?_
      rintro ⟨outs, runRest⟩
      exact ⟨_, expandDocument_cons_eq_ok_iff.mpr ⟨out, run, outs, runRest, rfl⟩⟩
    · exact .inr meets

/-- All that the walk of an expanding document comes to expands. -/
theorem DocumentWalk.exists_expands (walk : DocumentWalk defs members opened part)
    (run : expandDocument defs members = .ok outs) : ∃ out, Expands defs opened part out := by
  have aligned := aligned_expandDocument run
  cases walk with
  | entry inSections hasSection mem walk =>
    obtain ⟨_, runSection⟩ := aligned.exists_of_mem hasSection
    obtain ⟨_, runEntries, _⟩ := (expandTop_section inSections).mp runSection
    obtain ⟨_, expands⟩ := (aligned_expandEntries runEntries).exists_of_mem mem
    exact walk.exists_expands expands
  | member mem plain walk =>
    obtain ⟨_, runMember⟩ := aligned.exists_of_mem mem
    exact walk.exists_expands ((expandTop_plain plain).mp runMember)

theorem DocumentMeets.expandDocument_ne_ok (meets : DocumentMeets defs members) :
    expandDocument defs members ≠ .ok outs := by
  obtain ⟨opened, part, walk, bad⟩ := meets
  intro run
  obtain ⟨_, expands⟩ := walk.exists_expands run
  exact bad.not_expands expands

/-- **Resolving fails exactly on a bad reachable reference.** A document whose root is no reference
cannot be made self-contained if and only if its walk, through its own definitions, comes to a bad
reference. -/
theorem resolve_fails_iff_meets (plain : pointer? members = none) :
    (∃ e, resolve (.object members) = .error e) ↔
      DocumentMeets (definitionsOf (.object members)) members := by
  constructor
  · rintro ⟨e, failed⟩
    refine (expandDocument_or_meets _ members).resolve_left ?_
    rintro ⟨outs, run⟩
    rw [resolve, (resolveWith_eq_ok_iff_of_plain plain).mpr ⟨outs, run, rfl⟩] at failed
    cases failed
  · intro meets
    cases run : resolve (.object members) with
    | error e => exact ⟨e, rfl⟩
    | ok result =>
      obtain ⟨outs, run, _⟩ := (resolveWith_eq_ok_iff_of_plain plain).mp run
      exact absurd run meets.expandDocument_ne_ok

/-- The members of a document with a reference to one of two definitions that are aliases of each
other. -/
def mutualAliases : Members :=
  [("item", .object [("$ref", .text "#/$defs/left")]),
    ("definitions", .object [("left", .object [("$ref", .text "#/$defs/right")])]),
    ("$defs", .object [("right", .object [("$ref", .text "#/definitions/left")])])]

/-- The look-ahead from a reference to one of two mutual aliases comes back to its start. -/
theorem resolve_fails_on_mutualAliases :
    pointer? mutualAliases = none ∧ ∃ e, resolve (.object mutualAliases) = .error e := by
  have left : Names "#/$defs/left" "left" := definitionName_eq_ok_iff.mp (by decide)
  have right : Names "#/$defs/right" "right" := definitionName_eq_ok_iff.mp (by decide)
  have back : Names "#/definitions/left" "left" := definitionName_eq_ok_iff.mp (by decide)
  have comesBack : ChainStuck (definitionsOf (.object mutualAliases)) [] "left" :=
    .further rfl rfl rfl right (.here rfl rfl rfl (.cyclic back (by decide)))
  have walk : DocumentWalk (definitionsOf (.object mutualAliases)) mutualAliases []
      (.object [("$ref", .text "#/$defs/left")]) :=
    .member List.mem_cons_self (.inl (by decide)) (.here [] _)
  have bad : BadReference (definitionsOf (.object mutualAliases)) [] "#/$defs/left" :=
    .inr ⟨"left", left, comesBack⟩
  exact ⟨rfl, (resolve_fails_iff_meets rfl).mpr ⟨[], _, walk, _, rfl, bad⟩⟩

end VerbForms.Schema
