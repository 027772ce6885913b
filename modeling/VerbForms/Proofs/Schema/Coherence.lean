import VerbForms.Proofs.Schema.Document

/-!
# References to one name are replaced by one value

A definition that expands on a path of open definitions expands in the same way on every part of
that path (`Expands.mono`), since open definitions only matter as cycles. So a reference to a
definition of object type is replaced by the definition's own entry in the result, wherever the
reference stands.
-/

namespace VerbForms.Schema

variable {defs : Definitions} {document value part out result : Json}
variable {members outs entries : Members} {path path' trail trail' : List String}
variable {position : Json.Position} {key name pointer : String} {target : Json}

/-! ### Fewer open definitions -/

private theorem append_subset (fewer : trail' ⊆ trail) (name : String) :
    trail' ++ [name] ⊆ trail ++ [name] :=
  List.append_subset.mpr ⟨List.subset_append_of_subset_left [name] fewer,
    List.subset_append_right trail [name]⟩

/-- A look-ahead that succeeds gives the same type with fewer definitions behind it. -/
theorem aliasType_mono {kind : Option String} (h : aliasType defs trail target = .ok kind)
    (fewer : trail' ⊆ trail) : aliasType defs trail' target = .ok kind := by
  fun_induction aliasType defs trail target generalizing trail' with
  | case1 trail target kind declared => rw [aliasType_of_declaredType declared, h]
  | case2 trail target untyped noAlias => rw [aliasType, untyped, noAlias, h]
  | case3 => cases h
  | case4 => cases h
  | case5 => cases h
  | case6 trail target untyped pointer isAlias name named next known fresh ih =>
    -- What is not on the longer trail is not on the shorter one, so no new cycle is met.
    rw [aliasType_of_reference untyped isAlias named known fun open' ↦ fresh (fewer open')]
    exact ih h (append_subset fewer name)

/-- Look-aheads from one definition agree, whatever is behind them. -/
theorem aliasType_unique {kind kind' : Option String}
    (h : aliasType defs trail target = .ok kind) (h' : aliasType defs trail' target = .ok kind') :
    kind = kind' := by
  have first := aliasType_mono h (List.nil_subset trail)
  have second := aliasType_mono h' (List.nil_subset trail')
  exact Except.ok.inj (first.symm.trans second)

theorem referent_mono {becomes : Referent} (h : referent defs path pointer = .ok becomes)
    (fewer : path' ⊆ path) : referent defs path' pointer = .ok becomes := by
  obtain ⟨name, target, kind, named, known, fresh, typed, rfl⟩ := exists_aliasType_of_referent h
  have typed' := aliasType_mono typed (append_subset fewer name)
  exact referent_of_aliasType named known (fun open' ↦ fresh (fewer open')) typed'

mutual

/-- A value that expands gives the same result with fewer open definitions. -/
theorem Expands.mono {path path' : List String} {value out : Json} :
    Expands defs path value out → path' ⊆ path → Expands defs path' value out
  | .inlined reference replaced expands, fewer =>
    .inlined reference (referent_mono replaced fewer) (expands.mono (append_subset fewer _))
  | .dropped reference scalar expands, fewer =>
    .dropped reference (referent_mono scalar fewer) (expands.mono fewer)
  | .object plain expands, fewer => .object plain (expands.mono fewer)
  | .array expands, fewer => .array (expands.mono fewer)
  | .leaf noObject noArray, _ => .leaf noObject noArray

theorem ExpandsItems.mono {path path' : List String} {items outs : List Json} :
    ExpandsItems defs path items outs → path' ⊆ path → ExpandsItems defs path' items outs
  | .nil, _ => .nil
  | .cons head tail, fewer => .cons (head.mono fewer) (tail.mono fewer)

theorem ExpandsMembers.mono {path path' : List String} {members outs : Members} :
    ExpandsMembers defs path members outs → path' ⊆ path → ExpandsMembers defs path' members outs
  | .nil, _ => .nil
  | .cons head tail, fewer => .cons (head.mono fewer) (tail.mono fewer)

end

theorem Expands.unique {out' : Json} (h : Expands defs path value out)
    (h' : Expands defs path value out') : out = out' :=
  Except.ok.inj ((expand_eq_ok_iff.mpr h).symm.trans (expand_eq_ok_iff.mpr h'))

/-! ### What expansion visits -/

/-- Expanding a value on a path comes to a part, on a path of its own; the position says where in
the result the part's expansion stands. -/
inductive Visits (defs : Definitions) :
    List String → Json → Json.Position → List String → Json → Prop where
  | here (path : List String) (value : Json) : Visits defs path value [] path value
  | member {path path' : List String} {members : Members} {key : String} {value part : Json}
      {position : Json.Position} (plain : pointer? members = none)
      (found : Assoc.get? members key = some value)
      (visits : Visits defs path value position path' part) :
      Visits defs path (.object members) (.member key :: position) path' part
  | sibling {path path' : List String} {members : Members} {pointer key : String}
      {value part : Json} {position : Json.Position} (reference : pointer? members = some pointer)
      (scalar : referent defs path pointer = .ok .dropped)
      (found : Assoc.get? (siblings members) key = some value)
      (visits : Visits defs path value position path' part) :
      Visits defs path (.object members) (.member key :: position) path' part
  | inside {path path' : List String} {members : Members} {pointer name : String}
      {target part : Json} {position : Json.Position} (reference : pointer? members = some pointer)
      (replaced : referent defs path pointer = .ok (.inlined name target))
      (visits : Visits defs (path ++ [name]) target position path' part) :
      Visits defs path (.object members) position path' part
  | item {path path' : List String} {items : List Json} {index : Nat} {value part : Json}
      {position : Json.Position} (found : items[index]? = some value)
      (visits : Visits defs path value position path' part) :
      Visits defs path (.array items) (.item index :: position) path' part

/-- Expanding a document comes to the parts of the entries of its sections and to those of its other
members. -/
inductive DocumentVisits (defs : Definitions) (document : Json) :
    Json.Position → List String → Json → Prop where
  | entry {path : List String} {key name : String} {entries : Members} {value part : Json}
      {position : Json.Position} (inSections : key ∈ sectionKeys)
      (hasSection : document.member? key = some (.object entries))
      (found : Assoc.get? entries name = some value)
      (visits : Visits defs [name] value position path part) :
      DocumentVisits defs document (.member key :: .member name :: position) path part
  | member {path : List String} {key : String} {value part : Json} {position : Json.Position}
      (found : document.member? key = some value) (plain : IsPlain key value)
      (visits : Visits defs [] value position path part) :
      DocumentVisits defs document (.member key :: position) path part

/-- What is visited is expanded, and its expansion stands at the position. -/
theorem Visits.expands (h : Visits defs path value position path' part)
    (expands : Expands defs path value out) :
    ∃ partOut, out.at? position = some partOut ∧ Expands defs path' part partOut := by
  induction h generalizing out with
  | here path value => exact ⟨out, rfl, expands⟩
  | member plain found _ ih =>
    obtain ⟨outs, membersExpand, rfl⟩ := (expands_plain_iff plain).mp expands
    obtain ⟨childOut, step, childExpands⟩ := membersExpand.exists_child? found
    rw [Json.at?_cons_of_child? step]
    exact ih childExpands
  | sibling reference scalar found _ ih =>
    obtain ⟨outs, siblingsExpand, rfl⟩ := (expands_dropped_iff reference scalar).mp expands
    obtain ⟨childOut, step, childExpands⟩ := siblingsExpand.exists_child? found
    rw [Json.at?_cons_of_child? step]
    exact ih childExpands
  | inside reference replaced _ ih => exact ih ((expands_inlined_iff reference replaced).mp expands)
  | item found _ ih =>
    cases expands with
    | leaf _ noArray => exact absurd rfl (noArray _)
    | array itemsExpand =>
      obtain ⟨childOut, step, childExpands⟩ := itemsExpand.exists_child? found
      rw [Json.at?_cons_of_child? step]
      exact ih childExpands

/-- A section of a document is expanded entry by entry. -/
theorem exists_entry_at? (run : expandDocument defs members = .ok outs)
    (inSections : key ∈ sectionKeys) (hasSection : Assoc.get? members key = some (.object entries))
    (found : Assoc.get? entries name = some value) (position : Json.Position) :
    ∃ out, Expands defs [name] value out ∧
      (Json.object outs).at? (.member key :: .member name :: position) = out.at? position := by
  obtain ⟨sectionOut, foundSection, runSection⟩ :=
    (aligned_expandDocument run).exists_right hasSection
  obtain ⟨entriesOut, runEntries, rfl⟩ := (expandTop_section inSections).mp runSection
  obtain ⟨out, foundOut, expands⟩ := (aligned_expandEntries runEntries).exists_right found
  refine ⟨out, expands, ?_⟩
  have first : (Json.object outs).child? (.member key) = some (.object entriesOut) := foundSection
  have second : (Json.object entriesOut).child? (.member name) = some out := foundOut
  rw [Json.at?_cons_of_child? first, Json.at?_cons_of_child? second]

/-- What a document visits is expanded, and its expansion stands at the position. -/
theorem DocumentVisits.expands
    (h : DocumentVisits defs (.object members) position path part)
    (run : expandDocument defs members = .ok outs) :
    ∃ partOut, (Json.object outs).at? position = some partOut ∧ Expands defs path part partOut := by
  cases h with
  | @entry _ key name entries value _ position inSections hasSection found visits =>
    obtain ⟨out, expands, place⟩ := exists_entry_at? run inSections hasSection found position
    rw [place]
    exact visits.expands expands
  | @member _ key value _ position found plain visits =>
    obtain ⟨out, foundOut, runValue⟩ := (aligned_expandDocument run).exists_right found
    have step : (Json.object outs).child? (.member key) = some out := foundOut
    rw [Json.at?_cons_of_child? step]
    exact visits.expands ((expandTop_plain plain).mp runValue)

/-! ### Entries and references -/

/-- No name is defined in two sections. -/
def DisjointSections (document : Json) : Prop :=
  ∀ key ∈ sectionKeys, ∀ other ∈ sectionKeys, ∀ name ∈ Assoc.keys (sectionOf document key),
    name ∈ Assoc.keys (sectionOf document other) → key = other

instance (document : Json) : Decidable (DisjointSections document) :=
  inferInstanceAs (Decidable (∀ key ∈ sectionKeys, ∀ other ∈ sectionKeys,
    ∀ name ∈ Assoc.keys (sectionOf document key),
      name ∈ Assoc.keys (sectionOf document other) → key = other))

/-- The look-ahead from a name ends at a definition of this type. -/
def HasReferentType (defs : Definitions) (name kind : String) : Prop :=
  ∃ target trail, Assoc.get? defs name = some target ∧
    aliasType defs trail target = .ok (some kind)

/-- A reference to a definition of object type expands like the definition's own entry. -/
theorem Expands.of_reference (h : Expands defs path (.object members) out)
    (reference : pointer? members = some pointer) (named : definitionName pointer = .ok name)
    (known : Assoc.get? defs name = some target)
    (typed : aliasType defs trail target = .ok (some objectType)) :
    Expands defs [name] target out := by
  cases h with
  | @inlined _ _ pointer' name' target' _ reference' replaced expands =>
    obtain rfl := Option.some.inj (reference.symm.trans reference')
    obtain ⟨named', known', _, _⟩ := referent_eq_inlined_iff.mp replaced
    obtain rfl := Except.ok.inj (named.symm.trans named')
    obtain rfl := Option.some.inj (known.symm.trans known')
    exact expands.mono (List.subset_append_right path [name])
  | @dropped _ _ _ pointer' reference' scalar _ =>
    -- The look-ahead at the reference gives the same type, so the reference is not dropped.
    obtain rfl := Option.some.inj (reference.symm.trans reference')
    obtain ⟨name', target', kind, named', known', _, typed', becomes⟩ :=
      exists_aliasType_of_referent scalar
    obtain rfl := Except.ok.inj (named.symm.trans named')
    obtain rfl := Option.some.inj (known.symm.trans known')
    rw [if_pos (aliasType_unique typed' typed)] at becomes
    cases becomes
  | object plain _ =>
    rw [reference] at plain
    cases plain
  | leaf noObject _ => exact absurd rfl (noObject members)

/-- What is no entry of a section is no entry of the expanded section. -/
theorem at?_eq_none_of_no_entry (run : expandDocument defs members = .ok outs)
    (inSections : key ∈ sectionKeys)
    (noEntry : name ∉ Assoc.keys (sectionOf (.object members) key)) :
    (Json.object outs).at? [.member key, .member name] = none := by
  have aligned := aligned_expandDocument run
  rw [Json.at?_cons, Json.child?]
  cases hasMember : Assoc.get? members key with
  | none =>
    rw [(aligned.get?_eq_none_iff key).mpr hasMember]
    rfl
  | some value =>
    obtain ⟨out, foundOut, runValue⟩ := aligned.exists_right hasMember
    rw [foundOut, Option.bind_some]
    rcases exists_section_or_isPlain key value with ⟨_, entries, rfl⟩ | plain
    · obtain ⟨entriesOut, runEntries, rfl⟩ := (expandTop_section inSections).mp runValue
      have isSection : Json.member? (.object members) key = some (.object entries) := hasMember
      rw [sectionOf_eq isSection, ← (aligned_expandEntries runEntries).keys_eq,
        ← Assoc.get?_eq_none_iff] at noEntry
      rw [Json.at?_cons, Json.child?, noEntry]
      rfl
    · have noObject := plain.resolve_left fun other ↦ other inSections
      have kept := ((expandTop_plain plain).mp runValue).isSome_members?
      cases value with
      | object entries => exact absurd rfl (noObject entries)
      | _ =>
        cases out with
        | object entriesOut => cases kept
        | _ => rfl

/-- **Substitution is coherent.** In a document that resolves, whose root is no reference and whose
sections share no name, every definition of object type has one entry in the result, and every
visited reference to it is replaced by a value equal to that entry. -/
theorem references_replaced_by_entry (distinct : document.DistinctKeys)
    (plain : reference? document = none) (disjoint : DisjointSections document)
    (run : resolve document = .ok result)
    (typed : HasReferentType (definitionsOf document) name objectType) :
    ∃ key ∈ sectionKeys, ∃ value, result.at? [.member key, .member name] = some value ∧
      (∀ other ∈ sectionKeys, other ≠ key →
        result.at? [.member other, .member name] = none) ∧
      ∀ position path members pointer,
        DocumentVisits (definitionsOf document) document position path (.object members) →
        pointer? members = some pointer → definitionName pointer = .ok name →
        result.at? position = some value := by
  cases document with
  | object members =>
    obtain ⟨target, trail, known, typed⟩ := typed
    obtain ⟨outs, runMembers, rfl⟩ := (resolveWith_eq_ok_iff_of_plain plain).mp run
    obtain ⟨key, inSections, entries, hasSection, found⟩ :=
      exists_entry_of_get?_definitionsOf distinct known
    obtain ⟨value, expands, place⟩ := exists_entry_at? runMembers inSections hasSection found []
    refine ⟨key, inSections, value, place, ?_, ?_⟩
    · intro other otherSection different
      apply at?_eq_none_of_no_entry runMembers otherSection
      intro otherEntry
      have isEntry : name ∈ Assoc.keys (sectionOf (.object members) key) := by
        rw [sectionOf_eq hasSection, Assoc.mem_keys_iff, found]
        rfl
      exact different (disjoint other otherSection key inSections name otherEntry isEntry)
    -- The reference expands its definition on a longer path than the entry does.
    · intro position path refMembers pointer visits reference named
      obtain ⟨out, atPosition, refExpands⟩ := visits.expands runMembers
      have sameEntry := refExpands.of_reference reference named known typed
      rw [atPosition, sameEntry.unique expands]
  | _ => cases run

/-- The inner one of two nested references is visited twice and replaced by the same entry. -/
theorem nested_references_replaced_by_entry :
    ∃ value, nestedExpanded.at? [.member "$defs", .member "part"] = some value ∧
      nestedExpanded.at? [.member "$defs", .member "whole", .member "part"] = some value ∧
      nestedExpanded.at? [.member "item", .member "part"] = some value := by
  have disjoint : DisjointSections nestedReferences := by decide
  have typed : HasReferentType (definitionsOf nestedReferences) "part" objectType :=
    ⟨_, [], rfl, aliasType_of_declaredType rfl []⟩
  obtain ⟨key, inSections, value, entry, _, replaced⟩ :=
    references_replaced_by_entry nestedReferences_distinct rfl disjoint resolve_nestedReferences
      typed
  have name : definitionName "#/$defs/part" = .ok "part" := by decide
  refine ⟨value, ?_, ?_, ?_⟩
  · rcases List.mem_pair.mp inSections with rfl | rfl
    · cases entry
    · exact entry
  · refine replaced _ ["whole"] [("$ref", .text "#/$defs/part")] _ ?_ rfl name
    exact .entry (by decide) rfl rfl (.member rfl rfl (.here _ _))
  · refine replaced _ ["whole"] [("$ref", .text "#/$defs/part")] _ ?_ rfl name
    exact .member rfl (.inl (by decide)) (.inside rfl referent_whole (.member rfl rfl (.here _ _)))

end VerbForms.Schema
