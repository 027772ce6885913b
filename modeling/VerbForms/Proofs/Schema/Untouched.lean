import VerbForms.Proofs.Schema.BadReference
import VerbForms.Proofs.Schema.Coherence

/-!
# What resolution leaves as it is

Only references are changed. A position with no reference at or above it keeps a value of the same
shape, and so does one that is reached through members beside the pointers of dropped references; a
dropped reference itself becomes the mapping of its other members. The argument is an induction on
the position: while the references above it are dropped, every step down in a value is a step down
in its expansion (`Expands.exists_at?`, `placed_of_amongKept`).
-/

namespace VerbForms.Schema

variable {defs : Definitions} {path : List String} {document value child part out result : Json}
variable {members outs entries : Members} {position : Json.Position} {step : Json.Step}
variable {key name pointer : String}

/-! ### Shapes and positions -/

/-- Two values look the same from above: objects with the same keys in the same order, arrays of the
same length, equal leaves. -/
def SameShape : Json → Json → Prop
  | .object members, .object outs => Assoc.keys outs = Assoc.keys members
  | .array items, .array outs => outs.length = items.length
  | value, out => out = value

/-- The positions of the sections in a document. -/
def sectionPositions : List Json.Position := sectionKeys.map fun key ↦ [.member key]

/-- The pointer of the reference that stands at a position of a document. A section is no reference,
whatever its entries are. -/
def referenceAt? (document : Json) (position : Json.Position) : Option String :=
  if position ∈ sectionPositions then none else (document.at? position).bind reference?

/-- No reference stands at or above a position. -/
def OffReferences (document : Json) (position : Json.Position) : Prop :=
  ∀ front, front <+: position → referenceAt? document front = none

/-- A pointer names a definition whose referent type is not the one of objects. -/
def NamesNoObject (defs : Definitions) (pointer : String) : Prop :=
  ∃ name, Names pointer name ∧ ¬ ReferentType defs name (some objectType)

/-- Every reference above a position names no object definition, and the position leads through one
of the reference's other members. -/
def AmongKept (defs : Definitions) (document : Json) (position : Json.Position) : Prop :=
  ∀ front step rest, position = front ++ step :: rest →
    ∀ pointer, referenceAt? document front = some pointer →
      step ≠ .member referenceKey ∧ NamesNoObject defs pointer

/-- Where no reference stands above a position, none has to be passed. -/
theorem OffReferences.amongKept (off : OffReferences document position) :
    AmongKept defs document position := by
  intro front step rest split pointer reference
  rw [off front (split ▸ List.prefix_append front _)] at reference
  cases reference

/-! ### One value and its expansion -/

theorem ExpandsItems.length_eq {items outs : List Json} (expand : ExpandsItems defs path items outs) :
    outs.length = items.length := by
  induction items generalizing outs with
  | nil =>
    cases expand
    rfl
  | cons item items ih =>
    cases expand with
    | cons _ rest => exact congrArg Nat.succ (ih rest)

/-- A value that is no reference keeps its shape. -/
theorem Expands.sameShape (expands : Expands defs path value out)
    (noReference : reference? value = none) : SameShape value out := by
  cases expands with
  | inlined reference _ _ => cases reference.symm.trans noReference
  | dropped reference _ _ => cases reference.symm.trans noReference
  | object _ membersExpand => exact membersExpand.aligned.keys_eq
  | array itemsExpand => exact itemsExpand.length_eq
  | leaf noObject noArray =>
    cases value with
    | object members => exact absurd rfl (noObject members)
    | array items => exact absurd rfl (noArray items)
    | _ => rfl

/-- A reference that names no object definition expands to what it declares beside its pointer. -/
theorem Expands.siblings_of_namesNoObject (expands : Expands defs path (.object members) out)
    (reference : pointer? members = some pointer) (noObject : NamesNoObject defs pointer) :
    ∃ outs, out = .object outs ∧ ExpandsMembers defs path (siblings members) outs := by
  cases expands with
  | @inlined _ _ pointer' _ _ _ reference' replaced _ =>
    -- What is replaced names an object definition, so this is not the case at hand.
    obtain rfl := Option.some.inj (reference.symm.trans reference')
    obtain ⟨name, names, other⟩ := noObject
    obtain ⟨names', _, typed⟩ := referentType_of_inlined replaced
    exact absurd (names.unique names' ▸ typed) other
  | dropped _ _ siblingsExpand => exact ⟨_, rfl, siblingsExpand⟩
  | object plain _ =>
    rw [reference] at plain
    cases plain
  | leaf isLeaf _ => exact absurd rfl (isLeaf members)

/-- Its other keys stay, in their order. -/
theorem Expands.keys_of_namesNoObject (expands : Expands defs path (.object members) out)
    (distinct : (Assoc.keys members).Nodup) (reference : pointer? members = some pointer)
    (noObject : NamesNoObject defs pointer) :
    ∃ outs, out = .object outs ∧
      Assoc.keys outs = (Assoc.keys members).filter (· ≠ referenceKey) := by
  obtain ⟨outs, rfl, siblingsExpand⟩ := expands.siblings_of_namesNoObject reference noObject
  refine ⟨outs, rfl, ?_⟩
  rw [siblingsExpand.aligned.keys_eq, siblings, Assoc.erase_eq_filter distinct, Assoc.keys,
    Assoc.keys, List.filter_map]
  rfl

/-- One step down in a value is one step down in its expansion, unless the value is a reference that
is replaced or the step leads to its pointer. -/
theorem Expands.exists_child? (expands : Expands defs path value out)
    (found : value.child? step = some child)
    (kept : ∀ pointer, reference? value = some pointer →
      step ≠ .member referenceKey ∧ NamesNoObject defs pointer) :
    ∃ childOut, out.child? step = some childOut ∧ Expands defs path child childOut := by
  cases value with
  | object members =>
    cases step with
    | item _ => cases found
    | member key =>
      cases reference : pointer? members with
      | none =>
        obtain ⟨outs, membersExpand, rfl⟩ := (expands_plain_iff reference).mp expands
        exact membersExpand.exists_child? found
      | some pointer =>
        obtain ⟨other, noObject⟩ := kept pointer reference
        obtain ⟨outs, rfl, siblingsExpand⟩ := expands.siblings_of_namesNoObject reference noObject
        have different : referenceKey ≠ key := fun same ↦ other (same ▸ rfl)
        have isSibling : Assoc.get? (siblings members) key = some child := by
          rw [siblings, Assoc.get?_erase_of_ne different]
          exact found
        exact siblingsExpand.exists_child? isSibling
  | array items =>
    cases step with
    | member _ => cases found
    | item index =>
      cases expands with
      | leaf _ noArray => exact absurd rfl (noArray items)
      | array itemsExpand => exact itemsExpand.exists_child? found
  | _ => cases found

/-- Every part of a value has its place in the expansion, as long as the references above it are
dropped and it does not stand in one of their pointers. -/
theorem Expands.exists_at? (expands : Expands defs path value out)
    (found : value.at? position = some part)
    (kept : ∀ front step rest, position = front ++ step :: rest →
      ∀ pointer, (value.at? front).bind reference? = some pointer →
        step ≠ .member referenceKey ∧ NamesNoObject defs pointer) :
    ∃ path' partOut, out.at? position = some partOut ∧ Expands defs path' part partOut := by
  induction position generalizing value out with
  | nil =>
    obtain rfl := Option.some.inj found
    exact ⟨path, out, rfl, expands⟩
  | cons step rest ih =>
    obtain ⟨child, isChild, below⟩ := Json.exists_child?_of_at?_cons found
    obtain ⟨childOut, isChildOut, childExpands⟩ :=
      expands.exists_child? isChild (kept [] step rest rfl)
    rw [Json.at?_cons_of_child? isChildOut]
    refine ih childExpands below fun front next last split ↦ ?_
    rw [← Json.at?_cons_of_child? isChild]
    exact kept (step :: front) next last (by rw [split, List.cons_append])

/-! ### Documents -/

/-- Below a member of the document no section is met again. -/
theorem not_mem_sectionPositions (step next : Json.Step) (rest : Json.Position) :
    step :: next :: rest ∉ sectionPositions := by
  intro mem
  obtain ⟨key, _, same⟩ := List.mem_map.mp mem
  cases same

/-- At and below a member that is no section with entries, every reference counts. -/
theorem referenceAt?_member (found : Assoc.get? members key = some value)
    (plain : IsPlain key value) (position : Json.Position) :
    referenceAt? (.object members) (.member key :: position) =
      (value.at? position).bind reference? := by
  have step : (Json.object members).child? (.member key) = some value := found
  rw [referenceAt?, Json.at?_cons_of_child? step]
  split
  · next isSection =>
    obtain ⟨other, inSections, same⟩ := List.mem_map.mp isSection
    cases same
    have noObject := plain.resolve_left fun none ↦ none inSections
    cases value with
    | object own => exact absurd rfl (noObject own)
    | _ => rfl
  · rfl

/-- At and below the entry of a section, every reference counts. -/
theorem referenceAt?_entry (hasSection : Assoc.get? members key = some (.object entries))
    (found : Assoc.get? entries name = some value) (position : Json.Position) :
    referenceAt? (.object members) (.member key :: .member name :: position) =
      (value.at? position).bind reference? := by
  have first : (Json.object members).child? (.member key) = some (.object entries) := hasSection
  have second : (Json.object entries).child? (.member name) = some value := found
  rw [referenceAt?, if_neg (not_mem_sectionPositions _ _ _), Json.at?_cons_of_child? first,
    Json.at?_cons_of_child? second]

/-- The value at a position of a document has a place in the result. It stands there expanded,
unless it is the document or a section, which are walked through as they are. -/
def Placed (defs : Definitions) (document result : Json) (position : Json.Position)
    (value : Json) : Prop :=
  ∃ out, result.at? position = some out ∧
    (referenceAt? document position = none ∧ SameShape value out ∨
      referenceAt? document position = reference? value ∧ ∃ path, Expands defs path value out)

/-- What stands in a section has its place: the section itself, its entries and what is below. -/
theorem placed_of_section (run : expandDocument defs members = .ok outs)
    (inSections : key ∈ sectionKeys) (hasSection : Assoc.get? members key = some (.object entries))
    (found : (Json.object entries).at? position = some value)
    (kept : AmongKept defs (.object members) (.member key :: position)) :
    Placed defs (.object members) (.object outs) (.member key :: position) value := by
  cases position with
  | nil =>
    obtain rfl := Option.some.inj found
    obtain ⟨sectionOut, isSectionOut, runTop⟩ :=
      (aligned_expandDocument run).exists_right hasSection
    obtain ⟨entriesOut, runEntries, rfl⟩ := (expandTop_section inSections).mp runTop
    have step : (Json.object outs).child? (.member key) = some (.object entriesOut) := isSectionOut
    have isSection : [Json.Step.member key] ∈ sectionPositions := List.mem_map_of_mem inSections
    refine ⟨.object entriesOut, Json.at?_cons_of_child? step [], .inl ⟨if_pos isSection, ?_⟩⟩
    exact (aligned_expandEntries runEntries).keys_eq
  | cons step rest =>
    obtain ⟨entry, isEntry, inEntry⟩ := Json.exists_child?_of_at?_cons found
    cases step with
    | item _ => cases isEntry
    | member name =>
      have counts := referenceAt?_entry hasSection isEntry
      obtain ⟨entryOut, expands, place⟩ := exists_entry_at? run inSections hasSection isEntry rest
      obtain ⟨path, out, atRest, partExpands⟩ :=
        expands.exists_at? inEntry fun front next last split ↦ by
          rw [← counts front]
          exact kept (.member key :: .member name :: front) next last (by rw [split]; rfl)
      refine ⟨out, place.trans atRest, .inr ⟨?_, path, partExpands⟩⟩
      rw [counts rest, inEntry, Option.bind_some]

/-- What stands in another member of the document has its place. -/
theorem placed_of_member (run : expandDocument defs members = .ok outs)
    (hasMember : Assoc.get? members key = some part) (plain : IsPlain key part)
    (found : part.at? position = some value)
    (kept : AmongKept defs (.object members) (.member key :: position)) :
    Placed defs (.object members) (.object outs) (.member key :: position) value := by
  have counts := referenceAt?_member hasMember plain
  obtain ⟨partOut, isPartOut, runPart⟩ := (aligned_expandDocument run).exists_right hasMember
  have step : (Json.object outs).child? (.member key) = some partOut := isPartOut
  obtain ⟨path, out, place, expands⟩ :=
    ((expandTop_plain plain).mp runPart).exists_at? found fun front next last split ↦ by
      rw [← counts front]
      exact kept (.member key :: front) next last (by rw [split]; rfl)
  refine ⟨out, (Json.at?_cons_of_child? step position).trans place, .inr ⟨?_, path, expands⟩⟩
  rw [counts position, found, Option.bind_some]

/-- Every value has its place in the result where the references above it are dropped and it does
not stand in one of their pointers. -/
theorem placed_of_amongKept (plain : pointer? members = none)
    (run : expandDocument defs members = .ok outs)
    (found : (Json.object members).at? position = some value)
    (kept : AmongKept defs (.object members) position) :
    Placed defs (.object members) (.object outs) position value := by
  cases position with
  | nil =>
    obtain rfl := Option.some.inj found
    exact ⟨.object outs, rfl, .inl ⟨plain, (aligned_expandDocument run).keys_eq⟩⟩
  | cons step rest =>
    obtain ⟨top, isTop, inTop⟩ := Json.exists_child?_of_at?_cons found
    cases step with
    | item _ => cases isTop
    | member key =>
      rcases exists_section_or_isPlain key top with ⟨inSections, entries, rfl⟩ | plainTop
      · exact placed_of_section run inSections isTop inTop kept
      · exact placed_of_member run isTop plainTop inTop kept

/-- **Resolution touches nothing but references.** In a document that resolves and whose root is no
reference, every position with no reference at or above it keeps a value of the same shape. A
reference to a definition that is no object becomes the mapping of its other keys, in their order.
It may stand at such a position or among the members kept from another such reference, and there
everything else keeps its shape too. -/
theorem resolution_changes_references_only (distinct : document.DistinctKeys)
    (plain : reference? document = none) (run : resolveWith defs document = .ok result)
    (found : document.at? position = some value) :
    (OffReferences document position →
      ∃ out, result.at? position = some out ∧ SameShape value out) ∧
    (AmongKept defs document position →
      (referenceAt? document position = none →
        ∃ out, result.at? position = some out ∧ SameShape value out) ∧
      ∀ pointer, referenceAt? document position = some pointer → NamesNoObject defs pointer →
        ∃ own outs, value = .object own ∧ result.at? position = some (.object outs) ∧
          Assoc.keys outs = (Assoc.keys own).filter (· ≠ referenceKey)) := by
  cases document with
  | object members =>
    obtain ⟨outs, runMembers, rfl⟩ := (resolveWith_eq_ok_iff_of_plain plain).mp run
    have keepsShape (kept : AmongKept defs (.object members) position)
        (noReference : referenceAt? (.object members) position = none) :
        ∃ out, (Json.object outs).at? position = some out ∧ SameShape value out := by
      obtain ⟨out, place, ⟨_, same⟩ | ⟨counts, path, expands⟩⟩ :=
        placed_of_amongKept plain runMembers found kept
      · exact ⟨out, place, same⟩
      · exact ⟨out, place, expands.sameShape (counts ▸ noReference)⟩
    refine ⟨fun off ↦ keepsShape off.amongKept (off position (List.prefix_refl _)),
      fun kept ↦ ⟨keepsShape kept, fun pointer isReference noObject ↦ ?_⟩⟩
    obtain ⟨out, place, ⟨noReference, _⟩ | ⟨counts, path, expands⟩⟩ :=
      placed_of_amongKept plain runMembers found kept
    · rw [noReference] at isReference
      cases isReference
    · obtain ⟨own, isObject, reference⟩ := Option.bind_eq_some_iff.mp (counts ▸ isReference)
      cases value with
      | object own' =>
        obtain rfl := Option.some.inj isObject
        have ownDistinct := (Json.distinctKeys_object.mp (distinct.at? found)).1
        obtain ⟨outs, rfl, keys⟩ := expands.keys_of_namesNoObject ownDistinct reference noObject
        exact ⟨own', outs, rfl, place, keys⟩
      | _ => cases isObject
  | _ => cases run

/-! ### A document with dropped references -/

/-- A document with a reference to a text definition, which declares another one beside its
pointer. -/
def droppedReferences : Json :=
  .object
    [("name", .object [("$ref", .text "#/$defs/word"), ("title", .text "Name"),
        ("examples", .array [.object [("default", .text "a"), ("$ref", .text "#/$defs/word")]])]),
      ("$defs", .object [("word", .object [("type", .text "string")])])]

/-- What the document with dropped references is resolved to. -/
def droppedResolved : Json :=
  .object
    [("name", .object [("title", .text "Name"),
        ("examples", .array [.object [("default", .text "a")]])]),
      ("$defs", .object [("word", .object [("type", .text "string")])])]

theorem droppedReferences_distinct : droppedReferences.DistinctKeys := by
  simp [droppedReferences, Json.DistinctKeys, Json.DistinctKeysMembers, Json.DistinctKeysItems,
    Assoc.keys]

theorem resolve_droppedReferences : resolve droppedReferences = .ok droppedResolved := by
  have named : definitionName "#/$defs/word" = .ok "word" := by decide
  have typed : aliasType (definitionsOf droppedReferences) ([] ++ ["word"])
      (.object [("type", .text "string")]) = .ok (some "string") := aliasType_of_declaredType rfl _
  have scalar : referent (definitionsOf droppedReferences) [] "#/$defs/word" = .ok .dropped :=
    referent_of_aliasType named rfl List.not_mem_nil typed
  have inner : Expands (definitionsOf droppedReferences) []
      (.object [("default", .text "a"), ("$ref", .text "#/$defs/word")])
      (.object [("default", .text "a")]) :=
    .dropped rfl scalar (.cons (.leaf nofun nofun) .nil)
  have name : Expands (definitionsOf droppedReferences) []
      (.object [("$ref", .text "#/$defs/word"), ("title", .text "Name"),
        ("examples", .array [.object [("default", .text "a"), ("$ref", .text "#/$defs/word")]])])
      _ :=
    .dropped rfl scalar (.cons (.leaf nofun nofun) (.cons (.array (.cons inner .nil)) .nil))
  have word : Expands (definitionsOf droppedReferences) ["word"]
      (.object [("type", .text "string")]) (.object [("type", .text "string")]) :=
    .object rfl (.cons (.leaf nofun nofun) .nil)
  have entries : expandEntries (definitionsOf droppedReferences)
      [("word", .object [("type", .text "string")])] =
        .ok [("word", .object [("type", .text "string")])] :=
    expandEntries_cons_eq_ok_iff.mpr ⟨_, word, [], rfl, rfl⟩
  refine (resolveWith_eq_ok_iff_of_plain rfl).mpr ⟨_, ?_, rfl⟩
  refine expandDocument_cons_eq_ok_iff.mpr ⟨_, expand_eq_ok_iff.mpr name, _, ?_, rfl⟩
  refine expandDocument_cons_eq_ok_iff.mpr ⟨_, ?_, [], rfl, rfl⟩
  exact (expandTop_section (by decide)).mpr ⟨_, entries, rfl⟩

theorem word_namesNoObject : NamesNoObject (definitionsOf droppedReferences) "#/$defs/word" := by
  refine ⟨"word", definitionName_eq_ok_iff.mp (by decide), fun isObject ↦ ?_⟩
  have isText : ReferentType (definitionsOf droppedReferences) "word" (some "string") :=
    .declared rfl rfl
  exact absurd (isText.unique isObject) (by decide)

/-- The inner one of the two references stands among the members that the outer one keeps. -/
theorem amongKept_inner :
    AmongKept (definitionsOf droppedReferences) droppedReferences
      [.member "name", .member "examples", .item 0] := by
  intro front step rest split pointer isReference
  -- Above it stand the document, the outer reference and an array.
  match front, split with
  | [], _ => cases isReference
  | [_], split =>
    simp only [List.cons_append, List.nil_append, List.cons.injEq] at split
    obtain ⟨rfl, rfl, _⟩ := split
    obtain rfl : "#/$defs/word" = pointer := Option.some.inj isReference
    exact ⟨by decide, word_namesNoObject⟩
  | [_, _], split =>
    simp only [List.cons_append, List.nil_append, List.cons.injEq] at split
    obtain ⟨rfl, rfl, _⟩ := split
    cases isReference
  | _ :: _ :: _ :: _, split => simp at split

/-- The section stays as it is, and both references lose their pointers only. -/
theorem droppedReferences_changed_at_references_only :
    (∃ out, droppedResolved.at? [.member "$defs", .member "word"] = some out ∧
      SameShape (.object [("type", .text "string")]) out) ∧
    ∃ own outs, Json.object [("default", .text "a"), ("$ref", .text "#/$defs/word")] = .object own ∧
      droppedResolved.at? [.member "name", .member "examples", .item 0] = some (.object outs) ∧
      Assoc.keys outs = (Assoc.keys own).filter (· ≠ referenceKey) := by
  have off : OffReferences droppedReferences [.member "$defs", .member "word"] := by
    intro front above
    rw [List.prefix_iff_eq_take.mp above]
    match front.length with
    | 0 => rfl
    | 1 => rfl
    | _ + 2 =>
      rw [List.take_succ_cons, List.take_succ_cons, List.take_nil]
      rfl
  refine ⟨?_, ?_⟩
  · exact (resolution_changes_references_only droppedReferences_distinct rfl
      resolve_droppedReferences rfl).1 off
  · exact ((resolution_changes_references_only droppedReferences_distinct rfl
      resolve_droppedReferences rfl).2 amongKept_inner).2 _ rfl word_namesNoObject

end VerbForms.Schema
