import VerbForms.Proofs.Schema.BadReference
import VerbForms.Proofs.Schema.Coherence
import VerbForms.Proofs.Schema.OpenedRoot

/-!
# A replaced root and the sections

Where the root of a document is a reference to a definition of object type, the result has the members
of the expanded definition and, beside them, the document's sections. A member of the definition that
is called like a section takes the section's place (`member?_of_replaced`). So a section is kept
exactly where the definition has no such member, or one that equals what the section resolves to
(`root_keeps_section_iff`).
-/

namespace VerbForms.Schema

variable {defs : Definitions} {path : List String} {members outs : Members}
variable {value out result : Json} {key name pointer : String} {target : Json}

/-! ### Sections -/

/-- What a section resolves to: the same names in the same order, each entry expanded with its own
name open. A section that is no object is expanded as a whole. -/
inductive SectionForm (defs : Definitions) : Json → Json → Prop where
  | entries {entries outs : Members}
      (aligned : Assoc.Aligned (fun name ↦ Expands defs [name]) entries outs) :
      SectionForm defs (.object entries) (.object outs)
  | other {value out : Json} (noObject : ∀ entries, value ≠ .object entries)
      (expands : Expands defs [] value out) : SectionForm defs value out

/-- A section of a document is in the result, resolved, or it is in neither of them. -/
def SectionKept (defs : Definitions) (document result : Json) (key : String) : Prop :=
  Option.Rel (SectionForm defs) (document.member? key) (result.member? key)

theorem expandTop_eq_ok_iff_sectionForm (inSections : key ∈ sectionKeys) :
    expandTop defs key value = .ok out ↔ SectionForm defs value out := by
  rcases exists_section_or_isPlain key value with ⟨_, entries, rfl⟩ | plain
  · rw [expandTop_section inSections]
    constructor
    · rintro ⟨outs, run, rfl⟩
      exact .entries (expandEntries_eq_ok_iff.mp run)
    · intro form
      cases form with
      | entries aligned => exact ⟨_, expandEntries_eq_ok_iff.mpr aligned, rfl⟩
      | other noObject _ => exact absurd rfl (noObject entries)
  · have noObject := plain.resolve_left fun other ↦ other inSections
    rw [expandTop_plain plain]
    constructor
    · intro expands
      exact .other noObject expands
    · intro form
      cases form with
      | entries _ => exact absurd rfl (noObject _)
      | other _ expands => exact expands

/-! ### The root -/

/-- The members of a resolved document with a replaced root: those of the expanded definition, and
the resolved sections under the keys that the definition leaves. -/
theorem member?_of_replaced (known : defs.Distinct)
    (reference : pointer? members = some pointer)
    (replaced : referent defs [] pointer = .ok (.inlined name target))
    (run : resolveWith defs (.object members) = .ok result) :
    ∃ outs, Expands defs [name] target (.object outs) ∧ ∀ key,
      (∀ own, Assoc.get? outs key = some own → result.member? key = some own) ∧
      (Assoc.get? outs key = none → Option.Rel (SectionForm defs)
        (if key ∈ sectionKeys then Assoc.get? members key else none) (result.member? key)) := by
  obtain ⟨opened, runRoot, run⟩ := bind_eq_ok.mp run
  obtain ⟨results, runDocument, run⟩ := bind_eq_ok.mp run
  obtain rfl := pure_eq_ok.mp run
  obtain ⟨outs, expands, rfl⟩ := (openRoot_inlined_iff reference replaced).mp runRoot
  have targetKeys := known _ _ (referent_inlined replaced).1
  have outsKeys := expands.distinctKeys known targetKeys
  have free := expands.referenceFree known targetKeys
  have aligned := aligned_expandDocument runDocument
  have ownFirst (key : String) : Assoc.get? (Assoc.putAll (sectionsIn members) outs) key =
      (Assoc.get? outs key).or (Assoc.get? (sectionsIn members) key) :=
    Assoc.get?_putAll _ (Json.distinctKeys_object.mp outsKeys).1 key
  refine ⟨outs, expands, fun key ↦ ⟨fun own found ↦ ?_, fun absent ↦ ?_⟩⟩
  · have isOpened := ownFirst key
    rw [found, Option.some_or] at isOpened
    obtain ⟨out, isResult, runOwn⟩ := aligned.exists_right isOpened
    -- The expanded definition is free of references, so its members stay as they are.
    have isChild : (Json.object outs).child? (.member key) = some own := found
    rw [(free.child isChild).expandTop (outsKeys.member found)] at runOwn
    rw [Except.ok.inj runOwn]
    exact isResult
  · have related := aligned.rel_get? key
    rw [ownFirst key, absent, Option.none_or, get?_sectionsIn] at related
    rw [Json.member?]
    generalize Assoc.get? results key = isResult at related ⊢
    split at related
    · next inSections =>
      rw [if_pos inSections]
      generalize Assoc.get? members key = isSection at related ⊢
      cases related with
      | some runSection => exact .some ((expandTop_eq_ok_iff_sectionForm inSections).mp runSection)
      | none => exact .none
    · next other =>
      rw [if_neg other]
      cases related
      exact .none

theorem sectionKept_iff {outs : Members}
    (stands : ∀ own, Assoc.get? outs key = some own → result.member? key = some own)
    (left : Assoc.get? outs key = none →
      Option.Rel (SectionForm defs) (Assoc.get? members key) (result.member? key)) :
    SectionKept defs (.object members) result key ↔
      ∀ own, Assoc.get? outs key = some own →
        ∃ value, Assoc.get? members key = some value ∧ SectionForm defs value own := by
  rw [SectionKept, Json.member?]
  cases found : Assoc.get? outs key with
  | none =>
    refine ⟨fun _ own isOwn ↦ ?_, fun _ ↦ left found⟩
    cases isOwn
  | some own =>
    rw [stands own found]
    constructor
    · rintro kept _ ⟨⟩
      generalize Assoc.get? members key = isSection at kept
      cases kept with
      | some form => exact ⟨_, rfl, form⟩
    · intro same
      obtain ⟨value, isSection, form⟩ := same own rfl
      rw [isSection]
      exact .some form

/-- **A root reference keeps the document's sections where its definition has none.** In a resolved
document whose root is a reference to a definition of object type, all members but the sections are
those of the expanded definition. A section of the document is kept, with the same names and each
entry resolved, exactly if the expanded definition has no member of that key or one that the section
resolves to; otherwise the definition's own member stands in its place. The definitions are those of
the document (`distinct_definitionsOf`) or others. -/
theorem root_keeps_section_iff (known : defs.Distinct) (reference : pointer? members = some pointer)
    (names : Names pointer name) (typed : ReferentType defs name (some objectType))
    (run : resolveWith defs (.object members) = .ok result) :
    ∃ target outs, Assoc.get? defs name = some target ∧
      Expands defs [name] target (.object outs) ∧
      (∀ key ∉ sectionKeys, result.member? key = Assoc.get? outs key) ∧
      ∀ key ∈ sectionKeys,
        (SectionKept defs (.object members) result key ↔
          ∀ own, Assoc.get? outs key = some own →
            ∃ value, Assoc.get? members key = some value ∧ SectionForm defs value own) ∧
        ∀ own, Assoc.get? outs key = some own → result.member? key = some own := by
  obtain ⟨opened, runRoot, _⟩ := bind_eq_ok.mp run
  obtain ⟨becomes, decided⟩ := exists_referent_of_openRoot reference runRoot
  obtain ⟨target, rfl⟩ := exists_inlined_of_referentType decided names typed
  obtain ⟨outs, expands, stands⟩ := member?_of_replaced known reference decided run
  refine ⟨target, outs, (referent_inlined decided).1, expands, ?_, ?_⟩
  · intro key other
    cases found : Assoc.get? outs key with
    | some own => exact (stands key).1 own found
    | none =>
      have related := (stands key).2 found
      rw [if_neg other] at related
      generalize result.member? key = isResult at related ⊢
      cases related
      rfl
  · intro key inSections
    obtain ⟨own, left⟩ := stands key
    rw [if_pos inSections] at left
    exact ⟨sectionKept_iff own left, own⟩

/-! ### A definition with and without sections -/

private theorem resolveWith_replaced {outs results : Members}
    (reference : pointer? members = some pointer)
    (replaced : referent defs [] pointer = .ok (.inlined name target))
    (expands : Expands defs [name] target (.object outs))
    (run : expandDocument defs (Assoc.putAll (sectionsIn members) outs) = .ok results) :
    resolveWith defs (.object members) = .ok (.object results) := by
  have runRoot := (openRoot_inlined_iff reference replaced).mpr ⟨outs, expands, rfl⟩
  exact bind_eq_ok.mpr ⟨_, runRoot, bind_eq_ok.mpr ⟨results, run, rfl⟩⟩

/-- A root reference to a definition that has a table of definitions of its own. -/
def nestedSection : Members :=
  [("$ref", .text "#/$defs/pet"),
    ("$defs", .object [("pet", .object [("type", .text "object"), ("$defs", .object [])])])]

private theorem resolve_nestedSection : resolve (.object nestedSection) =
    .ok (.object [("$defs", .object []), ("type", .text "object")]) := by
  have replaced : referent (definitionsOf (.object nestedSection)) [] "#/$defs/pet" =
      .ok (.inlined "pet" (.object [("type", .text "object"), ("$defs", .object [])])) :=
    referent_eq_inlined_iff.mpr ⟨by decide, rfl, by decide, aliasType_of_declaredType rfl _⟩
  have expands : Expands (definitionsOf (.object nestedSection)) ["pet"]
      (.object [("type", .text "object"), ("$defs", .object [])])
      (.object [("type", .text "object"), ("$defs", .object [])]) :=
    .object rfl (.cons (expands_text _ _) (.cons (.object rfl .nil) .nil))
  refine resolveWith_replaced rfl replaced expands ?_
  refine expandDocument_cons_eq_ok_iff.mpr ⟨.object [], ?_, [("type", .text "object")], ?_, rfl⟩
  · exact (expandTop_section (by decide)).mpr ⟨[], rfl, rfl⟩
  · refine expandDocument_cons_eq_ok_iff.mpr ⟨.text "object", ?_, [], rfl, rfl⟩
    exact (expandTop_plain (.inl (by decide))).mpr (expands_text _ _)

/-- The document's table of definitions is gone from the result: the one of the definition stands
there. -/
theorem exists_section_lost :
    ReferentType (definitionsOf (.object nestedSection)) "pet" (some objectType) ∧
      resolve (.object nestedSection) =
        .ok (.object [("$defs", .object []), ("type", .text "object")]) ∧
      ¬ SectionKept (definitionsOf (.object nestedSection)) (.object nestedSection)
        (.object [("$defs", .object []), ("type", .text "object")]) "$defs" := by
  refine ⟨.declared rfl rfl, resolve_nestedSection, fun kept ↦ ?_⟩
  have form : Option.Rel (SectionForm (definitionsOf (.object nestedSection)))
      (some (.object [("pet", .object [("type", .text "object"), ("$defs", .object [])])]))
      (some (.object [])) := kept
  cases form with
  | some form =>
    cases form with
    | entries aligned => cases aligned
    | other noObject _ => exact noObject _ rfl

/-- A root reference to a definition that refers to another one. -/
def rootReference : Members :=
  [("$ref", .text "#/$defs/pet"), ("title", .text "Pet"),
    ("$defs", .object
      [("pet", .object [("type", .text "object"), ("tag", .object [("$ref", .text "#/$defs/tag")])]),
        ("tag", .object [("type", .text "object")])])]

/-- The definition as the new root, with both definitions beside it. -/
def rootExpanded : Json :=
  .object
    [("$defs", .object
        [("pet", .object [("type", .text "object"), ("tag", .object [("type", .text "object")])]),
          ("tag", .object [("type", .text "object")])]),
      ("type", .text "object"), ("tag", .object [("type", .text "object")])]

private theorem expands_tag (path : List String) :
    Expands (definitionsOf (.object rootReference)) path (.object [("type", .text "object")])
      (.object [("type", .text "object")]) :=
  .object rfl (.cons (expands_text _ _) .nil)

private theorem expands_pet :
    Expands (definitionsOf (.object rootReference)) ["pet"]
      (.object [("type", .text "object"), ("tag", .object [("$ref", .text "#/$defs/tag")])])
      (.object [("type", .text "object"), ("tag", .object [("type", .text "object")])]) := by
  have replaced : referent (definitionsOf (.object rootReference)) ["pet"] "#/$defs/tag" =
      .ok (.inlined "tag" (.object [("type", .text "object")])) :=
    referent_eq_inlined_iff.mpr ⟨by decide, rfl, by decide, aliasType_of_declaredType rfl _⟩
  exact .object rfl (.cons (expands_text _ _) (.cons (.inlined rfl replaced (expands_tag _)) .nil))

private theorem resolve_rootReference : resolve (.object rootReference) = .ok rootExpanded := by
  have replaced : referent (definitionsOf (.object rootReference)) [] "#/$defs/pet" =
      .ok (.inlined "pet" (.object
        [("type", .text "object"), ("tag", .object [("$ref", .text "#/$defs/tag")])])) :=
    referent_eq_inlined_iff.mpr ⟨by decide, rfl, by decide, aliasType_of_declaredType rfl _⟩
  refine resolveWith_replaced rfl replaced expands_pet (expandDocument_eq_ok_iff.mpr ?_)
  refine .cons ?_ (.cons ?_ (.cons ?_ .nil))
  · refine (expandTop_section (by decide)).mpr ⟨_, expandEntries_eq_ok_iff.mpr ?_, rfl⟩
    exact .cons expands_pet (.cons (expands_tag _) .nil)
  · exact (expandTop_plain (.inl (by decide))).mpr (expands_text _ _)
  · exact (expandTop_plain (.inl (by decide))).mpr (expands_tag [])

/-- The title beside the pointer is left out, and the table of definitions is kept. -/
theorem rootReference_keeps_section :
    resolve (.object rootReference) = .ok rootExpanded ∧
      rootExpanded.member? "title" = none ∧
      SectionKept (definitionsOf (.object rootReference)) (.object rootReference) rootExpanded
        "$defs" := by
  have distinct : (Json.object rootReference).DistinctKeys := by
    simp [rootReference, Json.DistinctKeys, Json.DistinctKeysMembers, Assoc.keys]
  have names : Names "#/$defs/pet" "pet" := definitionName_eq_ok_iff.mp (by decide)
  obtain ⟨target, outs, known, expands, _, sections⟩ :=
    root_keeps_section_iff (distinct_definitionsOf distinct) rfl names (.declared rfl rfl)
      resolve_rootReference
  obtain rfl := Option.some.inj (known.symm.trans rfl)
  refine ⟨resolve_rootReference, rfl, (sections "$defs" (by decide)).1.mpr fun own found ↦ ?_⟩
  -- The expanded definition has no member of that key.
  obtain rfl := Json.object.inj (expands.unique expands_pet)
  cases found

end VerbForms.Schema
