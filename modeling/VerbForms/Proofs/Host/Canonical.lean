import VerbForms.Host.Server
import VerbForms.Proofs.Remote.BasePath

/-!
# Canonical paths of resources

The path of a resource begins with one slash, names no host and has no blanks at its ends. Every text that
is accepted is brought into this form, and a path that has it stays as it is. So texts that differ in the
blanks around them, or in the slash in front, mean the same resource, and a gateway keeps the path that it
is made for.
-/

namespace VerbForms

/-! ### Parts of texts -/

namespace Text

variable {part s : String}

theorem beginsWith_iff_prefix (cs : List Char) (chars : part.toList = cs) :
    beginsWith part s = true ↔ cs <+: s.toList := by
  rw [beginsWith, chars, List.isPrefixOf_iff_prefix]

theorem occursIn_iff_infix {part cs : List Char} : occursIn part cs = true ↔ part <:+: cs := by
  induction cs with
  | nil => rw [occursIn, List.isEmpty_iff, List.infix_nil]
  | cons c rest ih => rw [occursIn, Bool.or_eq_true, List.isPrefixOf_iff_prefix, ih, List.infix_cons_iff]

theorem holds_iff_infix (cs : List Char) (chars : part.toList = cs) :
    holds part s = true ↔ cs <:+: s.toList := by
  rw [holds, chars, occursIn_iff_infix]

end Text

namespace Host

open Remote.Gateway (keptPath)

variable {given path rest : String} {refusal : Refusal}

/-- A text that names a host: it has a scheme, or it begins with two slashes. -/
def NamesHost (s : String) : Prop := [':', '/', '/'] <:+: s.toList ∨ ['/', '/'] <+: s.toList

/-- The form of the paths that resources are kept under. -/
structure IsCanonical (path : String) : Prop where
  slash : ['/'] <+: path.toList
  single : ¬ ['/', '/'] <+: path.toList
  relative : ¬ [':', '/', '/'] <:+: path.toList
  trimmed : Text.IsTrimmed path.toList

/-! ### Acceptance -/

/-- What is left of a text names a host or not, also where the root stands for nothing. -/
theorem namesHost_keptPath_iff (given : String) :
    NamesHost (keptPath given) ↔ NamesHost (Text.trim given) := by
  rw [keptPath]
  split
  · next none =>
    rw [String.isEmpty_iff.mp none]
    refine iff_of_false ?_ ?_ <;> rw [NamesHost] <;> decide
  · exact Iff.rfl

theorem namesHost_iff {s : String} :
    NamesHost s ↔ (Text.holds "://" s || Text.beginsWith "//" s) = true := by
  rw [Bool.or_eq_true, Text.holds_iff_infix [':', '/', '/'] rfl,
    Text.beginsWith_iff_prefix ['/', '/'] rfl, NamesHost]

/-- A path that names no host gets a slash in front, unless it has one. -/
theorem normalizeResource_eq (given : String) :
    normalizeResource given =
      if Text.holds "://" (keptPath given) || Text.beginsWith "//" (keptPath given) then
        .error .foreignResource
      else .ok (if Text.beginsWith "/" (keptPath given) then keptPath given else "/" ++ keptPath given) :=
  rfl

/-- **A path is refused** if what is left of it names a host. -/
theorem normalizeResource_eq_error (foreign : NamesHost (Text.trim given)) :
    normalizeResource given = .error .foreignResource := by
  rw [normalizeResource_eq, if_pos (namesHost_iff.mp ((namesHost_keptPath_iff given).mpr foreign))]

/-- A text that names no host is the rest of a path, with a slash in front or without. -/
theorem exists_rest {s : String} (relative : ¬ NamesHost s) :
    ∃ rest : String, ¬ ['/'] <+: rest.toList ∧ (s = rest ∨ s = "/" ++ rest) := by
  by_cases slash : ['/'] <+: s.toList
  · obtain ⟨rest, chars⟩ := slash
    refine ⟨String.ofList rest, fun second ↦ relative (.inr ?_), .inr ?_⟩
    · rw [String.toList_ofList] at second
      rw [← chars]
      exact (List.prefix_append_right_inj ['/']).mpr second
    · rw [← String.toList_inj, ← chars, String.toList_append, String.toList_ofList, String.toList_ofList]
  · exact ⟨s, slash, .inl rfl⟩

section Accepted

variable (relative : ¬ NamesHost (Text.trim given)) (bare : ¬ ['/'] <+: rest.toList)
  (kept : Text.trim given = rest ∨ Text.trim given = "/" ++ rest)
include relative bare kept

/-- **The path of a text that names no host** is one slash and what is left of the text. -/
theorem normalizeResource_eq_ok : normalizeResource given = .ok ("/" ++ rest) := by
  have slash : Text.beginsWith "/" ("/" ++ rest) = true :=
    (Text.beginsWith_iff_prefix ['/'] rfl).mpr (String.toList_append ▸ List.prefix_append _ _)
  rw [normalizeResource_eq, if_neg fun foreign ↦
    relative ((namesHost_keptPath_iff given).mp (namesHost_iff.mpr foreign)), keptPath]
  rcases kept with same | same
  · rw [same]
    split
    · next none =>
      rw [String.isEmpty_iff.mp none]
      rfl
    · rw [if_neg ((Text.beginsWith_iff_prefix ['/'] rfl).not.mpr bare)]
  · have some : ("/" ++ rest).isEmpty = false := by
      rw [← Bool.not_eq_true, String.isEmpty_iff, ← String.toList_inj, String.toList_append]
      exact List.cons_ne_nil _ _
    rw [same, some, if_neg Bool.false_ne_true, if_pos slash]

theorem isCanonical_of_rest : IsCanonical ("/" ++ rest) := by
  have chars : ("/" ++ rest).toList = '/' :: rest.toList := String.toList_append
  have trimmed : Text.IsTrimmed (Text.trim given).toList := by
    rw [Text.trim, String.toList_ofList]
    exact Text.isTrimmed_trimChars _
  have inside : rest.toList <:+ (Text.trim given).toList := by
    rcases kept with same | same
    · exact ⟨[], by rw [same, List.nil_append]⟩
    · rw [same, chars]
      exact List.suffix_cons _ _
  refine ⟨?_, fun second ↦ bare ?_, fun scheme ↦ relative (.inl ?_), ?_⟩
  · rw [chars]
    exact List.prefix_append ['/'] _
  · rw [chars] at second
    exact (List.prefix_append_right_inj ['/']).mp second
  · rw [chars, List.infix_cons_iff] at scheme
    have behind := scheme.resolve_left fun front ↦ by cases (List.cons_prefix_cons.mp front).1
    exact behind.trans inside.isInfix
  · rw [chars]
    refine Text.isTrimmed_cons rfl fun c last ↦ trimmed.last c ?_
    rw [← List.singleton_suffix_iff_getLast?_eq_some] at last ⊢
    exact last.trans inside

end Accepted

/-- Nothing is left to do for a canonical path. -/
theorem IsCanonical.normalizeResource (h : IsCanonical path) : normalizeResource path = .ok path := by
  have same : Text.trim path = path := by
    rw [Text.trim, h.trimmed.trimChars_eq, String.ofList_toList]
  have relative : ¬ NamesHost (Text.trim path) := by
    rw [same]
    exact not_or.mpr ⟨h.relative, h.single⟩
  obtain ⟨rest, bare, kept⟩ := exists_rest relative
  rw [same] at kept
  rcases kept with rfl | rfl
  · exact absurd h.slash bare
  · exact normalizeResource_eq_ok relative bare (.inr same)

/-! ### Resources of requests -/

/-- The request about another resource. -/
def Request.about (request : Request) (resource : String) : Request :=
  { request with query := [("path", resource)] }

/-- A host takes two texts for the same resource: both are refused, or both mean the console under one
path, whatever is asked of it. -/
def SameResource (given other : String) : Prop :=
  normalizeResource given = normalizeResource other ∧
    ∀ desk (request : Request), handle desk (request.about given) = handle desk (request.about other)

theorem resource_about (request : Request) (resource : String) :
    (request.about resource).resource = resource := rfl

theorem sameResource_of_eq {other : String} (same : normalizeResource given = normalizeResource other) :
    SameResource given other := by
  refine ⟨same, fun desk request ↦ ?_⟩
  have routed : route (request.about given) = route (request.about other) := rfl
  have named : (request.about given).givenId? = (request.about other).givenId? := rfl
  have reset : handleReset desk (request.about given) = handleReset desk (request.about other) := by
    delta handleReset
    rw [resource_about, resource_about, same]
  unfold handle
  rw [routed, named, reset, resource_about, resource_about, same]

theorem normalizeResource_append {front back : String} (frontBlank : ∀ c ∈ front.toList, Text.isBlank c = true)
    (backBlank : ∀ c ∈ back.toList, Text.isBlank c = true) (given : String) :
    normalizeResource (front ++ given ++ back) = normalizeResource given := by
  have same : Text.trim (front ++ given ++ back) = Text.trim given := by
    rw [Text.trim, String.toList_append, String.toList_append, Text.trimChars_append frontBlank backBlank,
      Text.trim]
  rw [normalizeResource_eq, normalizeResource_eq, keptPath, keptPath, same]

theorem normalizeResource_slash (trimmed : Text.IsTrimmed given.toList) (bare : ¬ ['/'] <+: given.toList) :
    normalizeResource ("/" ++ given) = normalizeResource given := by
  have chars : ("/" ++ given).toList = '/' :: given.toList := String.toList_append
  have kept : Text.trim given = given := by rw [Text.trim, trimmed.trimChars_eq, String.ofList_toList]
  have front : Text.IsTrimmed ('/' :: given.toList) := Text.isTrimmed_cons rfl trimmed.last
  have keptToo : Text.trim ("/" ++ given) = "/" ++ given := by
    rw [Text.trim, chars, front.trimChars_eq, ← chars, String.ofList_toList]
  have apart : NamesHost (Text.trim ("/" ++ given)) ↔ NamesHost (Text.trim given) := by
    have one : ¬ ['/', '/'] <+: given.toList := fun two ↦
      bare ((List.prefix_append ['/'] ['/']).trans two)
    have noScheme : ¬ [':', '/', '/'] <+: '/' :: given.toList := fun scheme ↦ by
      cases (List.cons_prefix_cons.mp scheme).1
    have alone : ¬ ['/', '/'] <+: '/' :: given.toList := fun two ↦
      bare ((List.prefix_append_right_inj ['/']).mp two)
    rw [kept, keptToo, NamesHost, NamesHost, chars, List.infix_cons_iff, or_iff_left alone,
      or_iff_left one, or_iff_right noScheme]
  by_cases foreign : NamesHost (Text.trim given)
  · rw [normalizeResource_eq_error foreign, normalizeResource_eq_error (apart.mpr foreign)]
  · rw [normalizeResource_eq_ok foreign bare (.inl kept),
      normalizeResource_eq_ok (mt apart.mp foreign) bare (.inr keptToo)]

/-- **Paths of resources have one canonical form.** A text is refused, with the status 422, exactly if it
names a host when the blanks at its ends are gone. Any other text has the path that is one slash and what
is left of the text behind a slash of its own. This path is canonical, it stays as it is when it is given
again, and every gateway that is made for it keeps it. Blanks around a text do not matter for what it
means, nor does a slash in front of a text without blanks at its ends. -/
theorem resource_paths_are_canonical (given : String) :
    (NamesHost (Text.trim given) ∧ normalizeResource given = .error .foreignResource ∧
          Refusal.foreignResource.status = 422 ∨
        ¬ NamesHost (Text.trim given) ∧ ∃ path, normalizeResource given = .ok path ∧ IsCanonical path ∧
          (∃ rest : String, ¬ ['/'] <+: rest.toList ∧ path = "/" ++ rest ∧
            (Text.trim given = rest ∨ Text.trim given = "/" ++ rest)) ∧
          normalizeResource path = .ok path ∧
          ∀ base gateway, Remote.Gateway.make base path = .ok gateway → gateway.resourcePath = path) ∧
      (∀ front back : String, (∀ c ∈ front.toList, Text.isBlank c = true) →
        (∀ c ∈ back.toList, Text.isBlank c = true) → SameResource (front ++ given ++ back) given) ∧
      (Text.IsTrimmed given.toList → ¬ ['/'] <+: given.toList → SameResource ("/" ++ given) given) := by
  refine ⟨?_, fun front back frontBlank backBlank ↦ ?_, fun trimmed bare ↦ ?_⟩
  · by_cases foreign : NamesHost (Text.trim given)
    · exact .inl ⟨foreign, normalizeResource_eq_error foreign, rfl⟩
    · obtain ⟨rest, bare, kept⟩ := exists_rest foreign
      have canonical := isCanonical_of_rest foreign bare kept
      refine .inr ⟨foreign, "/" ++ rest, normalizeResource_eq_ok foreign bare kept, canonical,
        ⟨rest, bare, rfl, kept⟩, canonical.normalizeResource, fun base gateway made ↦ ?_⟩
      rw [(Remote.Gateway.make_eq_ok made).1,
        Remote.keptPath_of_normalizeResource canonical.normalizeResource]
  · exact sameResource_of_eq (normalizeResource_append frontBlank backBlank given)
  · exact sameResource_of_eq (normalizeResource_slash trimmed bare)

/-- A text with blanks around it, a text without, and one with a slash in front have one path. -/
theorem pets_have_one_path :
    normalizeResource "pets/1" = .ok "/pets/1" ∧ IsCanonical "/pets/1" ∧
      SameResource ("\u3000" ++ "pets/1" ++ "\n") "pets/1" ∧ SameResource ("/" ++ "pets/1") "pets/1" := by
  have named : normalizeResource "pets/1" = .ok "/pets/1" := by with_unfolding_all rfl
  obtain ⟨form, blanks, slash⟩ := resource_paths_are_canonical "pets/1"
  refine ⟨named, ?_, blanks "\u3000" "\n" (by simp [Text.isBlank]) (by simp [Text.isBlank]),
    slash ⟨?_, ?_⟩ (by decide)⟩
  · rcases form with ⟨-, refused, -⟩ | ⟨-, path, accepted, canonical, -⟩
    · rw [named] at refused
      cases refused
    · rw [named] at accepted
      cases accepted
      exact canonical
  · rintro c ⟨⟩
    rfl
  · rintro c ⟨⟩
    rfl

end Host

end VerbForms
