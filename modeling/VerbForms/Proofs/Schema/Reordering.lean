import VerbForms.Proofs.Json.Reordering
import VerbForms.Proofs.Schema.ReferenceFree

/-!
# The order of members does not matter to resolution

Members are looked up by their keys and expanded one by one, so documents that are equal up to the
order of members resolve alike. The argument follows one successful run: each of its steps is a step
of a run on the reordered document, by the reordered definitions (`Expands.simulated`). That both
fail or both succeed is this in both directions.
-/

namespace VerbForms.Schema

open Json (Reordered)
open Assoc (Aligned)

variable {defs defs' : Definitions} {path trail : List String} {document other : Json}
variable {value value' out target target' : Json} {members members' outs : Members}
variable {key name pointer : String}

/-- Definitions that are equal up to the order of members. -/
def Alike (defs defs' : Definitions) : Prop :=
  ∀ name, Option.Rel Reordered (Assoc.get? defs name) (Assoc.get? defs' name)

theorem Alike.exists_get? (alike : Alike defs defs') (known : Assoc.get? defs name = some target) :
    ∃ target', Assoc.get? defs' name = some target' ∧ Reordered target target' := by
  have related := alike name
  rw [known] at related
  generalize Assoc.get? defs' name = found at related
  cases related with
  | some same => exact ⟨_, rfl, same⟩

/-! ### What is read of a value -/

theorem rel_member? (same : Reordered value value') (distinct : value.DistinctKeys) (key : String) :
    Option.Rel Reordered (value.member? key) (value'.member? key) := by
  cases value with
  | object members =>
    obtain ⟨members', rfl⟩ := same.exists_object
    exact same.rel_get? (Json.distinctKeys_object.mp distinct).1 key
  | _ => cases same <;> exact .none

theorem textMember?_eq (same : Reordered value value') (distinct : value.DistinctKeys)
    (key : String) : value'.textMember? key = value.textMember? key := by
  have related := rel_member? same distinct key
  rw [Json.textMember?, Json.textMember?]
  generalize value.member? key = found at related
  generalize value'.member? key = found' at related
  cases related with
  | some same => exact same.text?_eq
  | none => rfl

/-- A value is a reference if its member under the pointer's key is a text. -/
theorem reference?_eq_textMember? (value : Json) :
    reference? value = value.textMember? referenceKey := by
  cases value <;> rfl

theorem reference?_eq (same : Reordered value value') (distinct : value.DistinctKeys) :
    reference? value' = reference? value := by
  rw [reference?_eq_textMember?, reference?_eq_textMember?, textMember?_eq same distinct]

/-! ### What is looked up -/

/-- The look-ahead from a reordered definition finds the same type. -/
theorem aliasType_of_reordered (alike : Alike defs defs') (known : defs.Distinct)
    {kind : Option String} (found : aliasType defs trail target = .ok kind)
    (distinct : target.DistinctKeys) (same : Reordered target target') :
    aliasType defs' trail target' = .ok kind := by
  have sameType := textMember?_eq same distinct "type"
  have sameReference := reference?_eq same distinct
  fun_induction aliasType defs trail target generalizing target' with
  | case1 trail target own declares =>
    rw [← found, aliasType_of_declaredType (sameType.trans declares)]
  | case2 trail target untyped noAlias =>
    have untyped' : declaredType target' = none := sameType.trans untyped
    rw [← found, aliasType, untyped', sameReference.trans noAlias]
  | case3 => cases found
  | case4 => cases found
  | case5 => cases found
  | case6 trail target untyped pointer isAlias name named next nextKnown fresh ih =>
    obtain ⟨next', nextKnown', sameNext⟩ := alike.exists_get? nextKnown
    have nextDistinct := known _ _ nextKnown
    rw [aliasType_of_reference (sameType.trans untyped) (sameReference.trans isAlias) named
      nextKnown' fresh]
    exact ih found nextDistinct sameNext (textMember?_eq sameNext nextDistinct "type")
      (reference?_eq sameNext nextDistinct)

/-- A reference is replaced by the reordered definition, or dropped again. -/
theorem referent_of_reordered (alike : Alike defs defs') (known : defs.Distinct)
    {becomes : Referent} (found : referent defs path pointer = .ok becomes) :
    (∀ name target, becomes = .inlined name target → ∃ target', Reordered target target' ∧
      referent defs' path pointer = .ok (.inlined name target')) ∧
    (becomes = .dropped → referent defs' path pointer = .ok .dropped) := by
  obtain ⟨name, target, kind, named, isKnown, fresh, typed, rfl⟩ :=
    exists_aliasType_of_referent found
  obtain ⟨target', isKnown', same⟩ := alike.exists_get? isKnown
  have typed' := aliasType_of_reordered alike known typed (known _ _ isKnown) same
  rw [referent_of_aliasType named isKnown' fresh typed']
  by_cases isObject : kind = some objectType
  · simp only [isObject, if_true]
    refine ⟨fun name' target'' inlined ↦ ?_, nofun⟩
    cases inlined
    exact ⟨target', same, rfl⟩
  · simp only [isObject, if_false]
    exact ⟨nofun, fun _ ↦ trivial⟩

/-! ### Expansion of reordered values -/

/-- A value's reorderings expand to reorderings of its expansion. -/
def Simulated (defs' : Definitions) (path : List String) (value out : Json) : Prop :=
  ∀ value', Reordered value value' → ∃ out', Expands defs' path value' out' ∧ Reordered out out'

/-- An object's members that are simulated one by one are simulated together. -/
theorem exists_expandsMembers (simulated : Aligned (fun _ ↦ Simulated defs' path) members outs)
    (same : Reordered (.object members) (.object members')) :
    ∃ outs', ExpandsMembers defs' path members' outs' ∧
      Reordered (.object outs) (.object outs') := by
  have expandAlike := same.exists_aligned simulated
    fun _ _ _ value' _ valueSimulated sameValue ↦ valueSimulated value' sameValue
  obtain ⟨outs', expands, sameOuts⟩ := expandAlike
  exact ⟨outs', expandsMembers_iff.mpr expands, sameOuts⟩

mutual

/-- What expands by some definitions expands alike, once reordered, by the reordered ones. -/
theorem Expands.simulated (alike : Alike defs defs') (known : defs.Distinct) {path : List String}
    {value out : Json} : Expands defs path value out → value.DistinctKeys →
      Simulated defs' path value out
  | .inlined reference replaced expands, distinct => by
    intro value' same
    obtain ⟨target', sameTarget, replaced'⟩ :=
      (referent_of_reordered alike known replaced).1 _ _ rfl
    have targetDistinct := known _ _ (referent_inlined replaced).1
    obtain ⟨out', expands', sameOut⟩ :=
      expands.simulated alike known targetDistinct target' sameTarget
    obtain ⟨members', rfl⟩ := same.exists_object
    have reference' := (reference?_eq same distinct).trans reference
    exact ⟨out', .inlined reference' replaced' expands', sameOut⟩
  | .dropped reference scalar expands, distinct => by
    intro value' same
    have scalar' := (referent_of_reordered alike known scalar).2 rfl
    obtain ⟨members', rfl⟩ := same.exists_object
    have reference' := (reference?_eq same distinct).trans reference
    have siblingsSame := same.erase (Json.distinctKeys_object.mp distinct).1 referenceKey
    have siblingsDistinct := distinct.erase referenceKey
    rw [Json.DistinctKeys] at siblingsDistinct
    obtain ⟨outs', expands', sameOuts⟩ :=
      exists_expandsMembers (expands.simulated alike known siblingsDistinct.2) siblingsSame
    exact ⟨.object outs', .dropped reference' scalar' expands', sameOuts⟩
  | .object plain expands, distinct => by
    intro value' same
    obtain ⟨members', rfl⟩ := same.exists_object
    have plain' := (reference?_eq same distinct).trans plain
    rw [Json.DistinctKeys] at distinct
    obtain ⟨outs', expands', sameOuts⟩ :=
      exists_expandsMembers (expands.simulated alike known distinct.2) same
    exact ⟨.object outs', .object plain' expands', sameOuts⟩
  | .array expands, distinct => by
    intro value' same
    cases same with
    | leaf _ noArray => exact absurd rfl (noArray _)
    | array related =>
      rw [Json.DistinctKeys] at distinct
      obtain ⟨outs', expands', sameOuts⟩ := expands.simulated alike known distinct _ related
      exact ⟨.array outs', .array expands', .array sameOuts⟩
  | .leaf noObject noArray, _ => by
    intro value' same
    cases same with
    | leaf _ _ => exact ⟨_, .leaf noObject noArray, .leaf noObject noArray⟩
    | array => exact absurd rfl (noArray _)
    | object => exact absurd rfl (noObject _)

theorem ExpandsItems.simulated (alike : Alike defs defs') (known : defs.Distinct)
    {path : List String} {items outs : List Json} :
    ExpandsItems defs path items outs → Json.DistinctKeysItems items →
      ∀ others, Json.ReorderedItems items others →
        ∃ outs', ExpandsItems defs' path others outs' ∧ Json.ReorderedItems outs outs'
  | .nil, _ => by
    intro others related
    cases related
    exact ⟨[], .nil, .nil⟩
  | .cons head tail, distinct => by
    intro others related
    cases related with
    | cons same rest =>
      obtain ⟨out', expands, sameOut⟩ := head.simulated alike known distinct.1 _ same
      obtain ⟨outs', expandsRest, sameRest⟩ := tail.simulated alike known distinct.2 _ rest
      exact ⟨out' :: outs', .cons expands expandsRest, .cons sameOut sameRest⟩

theorem ExpandsMembers.simulated (alike : Alike defs defs') (known : defs.Distinct)
    {path : List String} {members outs : Members} :
    ExpandsMembers defs path members outs → Json.DistinctKeysMembers members →
      Aligned (fun _ ↦ Simulated defs' path) members outs
  | .nil, _ => .nil
  | .cons head tail, distinct =>
    .cons (head.simulated alike known distinct.1) (tail.simulated alike known distinct.2)

end

/-! ### Documents -/

/-- A member that is a section stays one, and so does any other one. -/
theorem IsPlain.reordered (plain : IsPlain key value) (same : Reordered value value') :
    IsPlain key value' := by
  refine plain.imp_right fun noObject members' isObject ↦ ?_
  obtain ⟨members, isObject'⟩ := (isObject ▸ same).symm.exists_object
  exact noObject members isObject'

theorem expandTop_reordered (alike : Alike defs defs') (known : defs.Distinct)
    (distinct : value.DistinctKeys) (run : expandTop defs key value = .ok out)
    (same : Reordered value value') :
    ∃ out', expandTop defs' key value' = .ok out' ∧ Reordered out out' := by
  rcases exists_section_or_isPlain key value with ⟨inSections, entries, rfl⟩ | plain
  · obtain ⟨outs, runEntries, rfl⟩ := (expandTop_section inSections).mp run
    obtain ⟨entries', rfl⟩ := same.exists_object
    obtain ⟨outs', expands, sameOuts⟩ := same.exists_aligned (aligned_expandEntries runEntries)
      fun name entry entryOut entry' mem expands ↦
        expands.simulated alike known ((Json.distinctKeys_object.mp distinct).2 _ mem) entry'
    refine ⟨.object outs', (expandTop_section inSections).mpr ⟨outs', ?_, rfl⟩, sameOuts⟩
    exact expandEntries_eq_ok_iff.mpr expands
  · obtain ⟨out', expands, sameOut⟩ :=
      ((expandTop_plain plain).mp run).simulated alike known distinct value' same
    exact ⟨out', (expandTop_plain (plain.reordered same)).mpr expands, sameOut⟩

theorem expandDocument_reordered (alike : Alike defs defs') (known : defs.Distinct)
    (distinct : (Json.object members).DistinctKeys) (run : expandDocument defs members = .ok outs)
    (same : Reordered (.object members) (.object members')) :
    ∃ outs', expandDocument defs' members' = .ok outs' ∧
      Reordered (.object outs) (.object outs') := by
  obtain ⟨outs', runs, sameOuts⟩ := same.exists_aligned (aligned_expandDocument run)
    fun key value out value' mem runValue sameValue ↦ expandTop_reordered alike known
      ((Json.distinctKeys_object.mp distinct).2 _ mem) runValue sameValue
  exact ⟨outs', expandDocument_eq_ok_iff.mpr runs, sameOuts⟩

/-- The sections stand in the order of merging, whatever the order of members. -/
theorem aligned_sectionsIn (same : Reordered (.object members) (.object members'))
    (distinct : (Assoc.keys members).Nodup) :
    Aligned (fun _ ↦ Reordered) (sectionsIn members) (sectionsIn members') := by
  rw [sectionsIn, sectionsIn]
  induction sectionKeys with
  | nil => exact .nil
  | cons key rest ih =>
    have related := same.rel_get? distinct key
    rw [List.filterMap_cons, List.filterMap_cons]
    generalize Assoc.get? members key = found at related
    generalize Assoc.get? members' key = found' at related
    cases related with
    | some sameSection => exact .cons sameSection ih
    | none => exact ih

/-- The opened root of a reordered document is a reordering of the opened root. -/
theorem openRoot_reordered (alike : Alike defs defs') (known : defs.Distinct)
    (distinct : (Json.object members).DistinctKeys) (run : openRoot defs members = .ok outs)
    (same : Reordered (.object members) (.object members')) :
    ∃ outs', openRoot defs' members' = .ok outs' ∧ Reordered (.object outs) (.object outs') := by
  have samePointer : pointer? members' = pointer? members := reference?_eq same distinct
  have keys := (Json.distinctKeys_object.mp distinct).1
  unfold openRoot at run ⊢
  rw [samePointer]
  split at run
  · obtain rfl := Except.ok.inj run
    exact ⟨members', rfl, same⟩
  · obtain ⟨becomes, found, run⟩ := bind_eq_ok.mp run
    have becomesAlike := referent_of_reordered alike known found
    cases becomes with
    | inlined name target =>
      obtain ⟨replacement, runTarget, run⟩ := bind_eq_ok.mp run
      obtain rfl := pure_eq_ok.mp run
      have expands := expand_eq_ok_iff.mp runTarget
      obtain ⟨target', sameTarget, found'⟩ := becomesAlike.1 name target rfl
      have targetDistinct := known _ _ (referent_inlined found).1
      obtain ⟨replacement', expands', sameReplacement⟩ :=
        expands.simulated alike known targetDistinct target' sameTarget
      -- Both replacements are objects, and they are written into the same sections.
      obtain ⟨targetMembers, rfl⟩ := exists_object_of_inlined found
      obtain ⟨added, rfl⟩ := expands.exists_object
      obtain ⟨added', rfl⟩ := sameReplacement.exists_object
      have addedKeys := (Json.distinctKeys_object.mp (expands.distinctKeys known targetDistinct)).1
      refine ⟨Assoc.putAll (sectionsIn members') added', ?_, ?_⟩
      · exact bind_eq_ok.mpr ⟨_, found', bind_eq_ok.mpr ⟨_, expand_eq_ok_iff.mpr expands', rfl⟩⟩
      · exact Reordered.putAll (aligned_sectionsIn same keys)
          ((keys_sectionsIn_sublist members).nodup (by decide)) sameReplacement addedKeys
    | dropped =>
      have left := distinct.erase referenceKey
      rw [Json.DistinctKeys] at left
      have expands := expandMembers_eq_ok_iff.mp run
      obtain ⟨outs', expands', sameOuts⟩ := exists_expandsMembers
        (expands.simulated alike known left.2) (same.erase keys referenceKey)
      refine ⟨outs', bind_eq_ok.mpr ⟨_, becomesAlike.2 rfl, ?_⟩, sameOuts⟩
      exact expandMembers_eq_ok_iff.mpr expands'

/-- A document resolves if a reordering of it does, to a reordering of its result. -/
theorem resolveWith_reordered (alike : Alike defs defs') (known : defs.Distinct)
    (distinct : document.DistinctKeys) (run : resolveWith defs document = .ok out)
    (same : Reordered document other) :
    ∃ out', resolveWith defs' other = .ok out' ∧ Reordered out out' := by
  cases document with
  | object members =>
    obtain ⟨others, rfl⟩ := same.exists_object
    obtain ⟨opened, runRoot, run⟩ := bind_eq_ok.mp run
    obtain ⟨outs, runDocument, run⟩ := bind_eq_ok.mp run
    obtain rfl := pure_eq_ok.mp run
    obtain ⟨opened', runRoot', sameOpened⟩ := openRoot_reordered alike known distinct runRoot same
    have openedKeys := (openRoot_plain known distinct runRoot).2
    obtain ⟨outs', runDocument', sameOuts⟩ :=
      expandDocument_reordered alike known openedKeys runDocument sameOpened
    exact ⟨.object outs',
      bind_eq_ok.mpr ⟨_, runRoot', bind_eq_ok.mpr ⟨_, runDocument', rfl⟩⟩, sameOuts⟩
  | _ => cases run

/-! ### Definitions -/

theorem alike_of_reordered (same : Reordered (.object defs) (.object defs'))
    (distinct : (Json.object defs).DistinctKeys) : Alike defs defs' :=
  same.rel_get? (Json.distinctKeys_object.mp distinct).1

/-- What stands under a name in an object, if there is one, up to order. -/
theorem rel_entry {found found' : Option Json} (related : Option.Rel Reordered found found')
    (distinct : ∀ value, found = some value → value.DistinctKeys) (name : String) :
    Option.Rel Reordered (Assoc.get? ((found.bind Json.members?).getD []) name)
      (Assoc.get? ((found'.bind Json.members?).getD []) name) := by
  cases related with
  | none => exact .none
  | @some value value' same =>
    cases value with
    | object entries =>
      obtain ⟨entries', rfl⟩ := same.exists_object
      exact same.rel_get? (Json.distinctKeys_object.mp (distinct _ rfl)).1 name
    | _ => cases same <;> exact .none

theorem rel_sectionOf (same : Reordered document other) (distinct : document.DistinctKeys)
    (key name : String) :
    Option.Rel Reordered (Assoc.get? (sectionOf document key) name)
      (Assoc.get? (sectionOf other key) name) := by
  refine rel_entry (rel_member? same distinct key) (fun value found ↦ ?_) name
  cases document with
  | object members => exact distinct.member found
  | _ => cases found

/-- The definitions of documents that are equal up to order are equal up to order. -/
theorem alike_definitionsOf (same : Reordered document other) (distinct : document.DistinctKeys) :
    Alike (definitionsOf document) (definitionsOf other) := by
  intro name
  rw [get?_definitionsOf distinct, get?_definitionsOf (same.distinctKeys distinct)]
  have second := rel_sectionOf same distinct "$defs" name
  have first := rel_sectionOf same distinct "definitions" name
  generalize Assoc.get? (sectionOf document "$defs") name = found at second
  generalize Assoc.get? (sectionOf other "$defs") name = found' at second
  cases second with
  | some sameEntry => exact .some sameEntry
  | none => exact first

/-! ### Outcomes -/

/-- Two resolutions both fail, or both succeed with results that are equal up to the order of
members. -/
def SameOutcome : Except SchemaError Json → Except SchemaError Json → Prop
  | .ok out, .ok out' => Reordered out out'
  | .error _, .error _ => True
  | _, _ => False

/-- If each of two resolutions follows the other one, their outcomes are the same. -/
theorem sameOutcome_of_follows {run run' : Except SchemaError Json}
    (forth : ∀ out, run = .ok out → ∃ out', run' = .ok out' ∧ Reordered out out')
    (back : ∀ out', run' = .ok out' → ∃ out, run = .ok out ∧ Reordered out' out) :
    SameOutcome run run' := by
  cases run with
  | ok out =>
    obtain ⟨out', rfl, same⟩ := forth out rfl
    exact same
  | error e =>
    cases run' with
    | ok out' =>
      obtain ⟨out, failed, _⟩ := back out' rfl
      cases failed
    | error e' => trivial

theorem sameOutcome_resolveWith (alike : Alike defs defs') (alike' : Alike defs' defs)
    (known : defs.Distinct) (known' : defs'.Distinct) (distinct : document.DistinctKeys)
    (same : Reordered document other) :
    SameOutcome (resolveWith defs document) (resolveWith defs' other) :=
  sameOutcome_of_follows (fun _ run ↦ resolveWith_reordered alike known distinct run same)
    fun _ run ↦ resolveWith_reordered alike' known' (same.distinctKeys distinct) run same.symm

/-- **Member order does not matter to resolution.** Two documents that are equal up to the order of
members at every depth, resolved by definitions that are equal in the same sense or each by its own
ones, either both fail or both resolve, to results that are equal up to the order of members. -/
theorem resolution_ignores_member_order (distinct : document.DistinctKeys)
    (same : Reordered document other) :
    (∀ defs defs' : Definitions, (Json.object defs).DistinctKeys →
      Reordered (.object defs) (.object defs') →
        SameOutcome (resolveWith defs document) (resolveWith defs' other)) ∧
    SameOutcome (resolve document) (resolve other) := by
  have distinct' := same.distinctKeys distinct
  constructor
  · intro defs defs' given sameDefs
    have given' := sameDefs.distinctKeys given
    exact sameOutcome_resolveWith (alike_of_reordered sameDefs given)
      (alike_of_reordered sameDefs.symm given') (fun _ _ found ↦ given.member found)
      (fun _ _ found ↦ given'.member found) distinct same
  · exact sameOutcome_resolveWith (alike_definitionsOf same distinct)
      (alike_definitionsOf same.symm distinct') (distinct_definitionsOf distinct)
      (distinct_definitionsOf distinct') distinct same

/-- The document with nested references, its members in another order at two depths. -/
def nestedReordered : Json :=
  .object
    [("$defs", .object
        [("whole", .object [("part", .object [("$ref", .text "#/$defs/part")]),
          ("type", .text "object")]),
        ("part", .object [("type", .text "object")])]),
      ("item", .object [("$ref", .text "#/$defs/whole")])]

theorem nestedReferences_reordered : Reordered nestedReferences nestedReordered := by
  have whole : Reordered
      (.object [("type", .text "object"), ("part", .object [("$ref", .text "#/$defs/part")])])
      (.object [("part", .object [("$ref", .text "#/$defs/part")]), ("type", .text "object")]) :=
    .object (.refl _) (.swap _ _ _)
  have sections : Reordered
      (.object [("whole", _), ("part", .object [("type", .text "object")])])
      (.object [("whole", _), ("part", .object [("type", .text "object")])]) :=
    .object (.cons whole (.refl _)) (.refl _)
  exact .object (.cons (.refl _) (.cons sections .nil)) (.swap _ _ _)

/-- The reordered document resolves to what the document itself resolves to, up to order. -/
theorem resolution_ignores_member_order_nested :
    ∃ out, resolve nestedReordered = .ok out ∧ Reordered nestedExpanded out := by
  have sameOutcome :=
    (resolution_ignores_member_order nestedReferences_distinct nestedReferences_reordered).2
  rw [resolve_nestedReferences] at sameOutcome
  cases run : resolve nestedReordered with
  | ok out =>
    rw [run] at sameOutcome
    exact ⟨out, rfl, sameOutcome⟩
  | error e =>
    rw [run] at sameOutcome
    exact sameOutcome.elim

end VerbForms.Schema
