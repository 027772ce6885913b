import VerbForms.Proofs.Schema.Calls

/-!
# The look-ahead and the expansion

Before a reference is replaced, the look-ahead goes along aliases to a definition that says of which type
it is. The expansion then goes the same way, with a look-ahead of its own at every alias, and each of
these finds what the first one has found (`LooksAhead.aliasType_eq`). So none of the aliases is refused,
the reference expands like the definition at the end of the way (`LooksAhead.calls`), and what comes
out is of object type (`Expands.declaredType_eq`).
-/

namespace VerbForms.Schema

variable {defs : Definitions} {path trail : List String} {value target last : Json}
variable {name pointer link kind : String}

/-! ### Types of expansions -/

theorem declaredType_siblings (members : Members) :
    declaredType (.object (siblings members)) = declaredType (.object members) := by
  have kept : Json.member? (.object (siblings members)) "type" = Json.member? (.object members) "type" :=
    Assoc.get?_erase_of_ne (by decide) members
  rw [declaredType, declaredType, Json.textMember?, Json.textMember?, kept]

/-- A type that is found at a definition is its own, or the definition is an alias without a type. -/
theorem declared_or_alias (found : aliasType defs trail target = .ok (some kind)) :
    declaredType target = some kind ∨
      declaredType target = none ∧ ∃ link, reference? target = some link := by
  cases declared : declaredType target with
  | some own =>
    rw [aliasType_of_declaredType declared] at found
    exact .inl (Except.ok.inj found)
  | none =>
    cases isAlias : reference? target with
    | some link => exact .inr ⟨rfl, link, rfl⟩
    | none =>
      rw [aliasType, declared, isAlias] at found
      cases found

/-- A reference to a known definition that is not open is replaced, where the look-ahead finds the object
type at the definition. -/
theorem referent_of_objectType (names : Names pointer name) (known : Assoc.get? defs name = some target)
    (fresh : name ∉ path) (found : aliasType defs (path ++ [name]) target = .ok (some objectType)) :
    referent defs path pointer = .ok (.inlined name target) :=
  referent_eq_inlined_iff.mpr ⟨definitionName_eq_ok_iff.mpr names, known, fresh, found⟩

/-- An alias at which the look-ahead finds the object type is replaced. -/
theorem exists_inlined_of_aliasType (untyped : declaredType target = none)
    (isAlias : reference? target = some link)
    (found : aliasType defs trail target = .ok (some objectType)) :
    ∃ next followed, referent defs trail link = .ok (.inlined next followed) := by
  obtain ⟨next, followed, names, known, fresh, found⟩ := exists_next_of_aliasType untyped isAlias found
  exact ⟨next, followed, referent_of_objectType names known fresh found⟩

/-- What the look-ahead takes for an object expands to a value that says so. -/
theorem Expands.declaredType_eq {path : List String} {value out : Json} :
    Expands defs path value out → aliasType defs path value = .ok (some objectType) →
      declaredType out = some objectType
  | .inlined _ replaced expands, _ =>
    expands.declaredType_eq (referent_eq_inlined_iff.mp replaced).2.2.2
  | .dropped reference scalar expands, found => by
    rw [expands.declaredType_eq, declaredType_siblings]
    refine (declared_or_alias found).resolve_right ?_
    rintro ⟨untyped, _⟩
    -- The look-ahead of the expansion finds the same, so the alias is not dropped.
    obtain ⟨next, followed, replaced⟩ := exists_inlined_of_aliasType untyped reference found
    rw [scalar] at replaced
    cases replaced
  | .object plain expands, found => by
    rw [expands.declaredType_eq]
    refine (declared_or_alias found).resolve_right ?_
    rintro ⟨_, link, isAlias⟩
    have noAlias : reference? (.object _) = none := plain
    rw [noAlias] at isAlias
    cases isAlias
  | .array _, found => by
    obtain ⟨_, isObject⟩ := exists_object_of_aliasType found
    cases isObject
  | .leaf noObject _, found => by
    obtain ⟨members, isObject⟩ := exists_object_of_aliasType found
    exact absurd isObject (noObject members)

theorem exists_members_of_declaredType (declared : declaredType value = some kind) :
    ∃ members, value = .object members ∧ Assoc.get? members "type" = some (.text kind) := by
  obtain ⟨own, found, isText⟩ := Option.bind_eq_some_iff.mp declared
  cases value with
  | object members =>
    cases own with
    | text word =>
      obtain rfl := Option.some.inj isText
      exact ⟨members, rfl, found⟩
    | _ => cases isText
  | _ => cases found

/-! ### The way along aliases -/

/-- Everywhere on the way of a look-ahead the same is found. -/
theorem LooksAhead.aliasType_eq (ahead : LooksAhead defs path pointer trail last)
    (names : Names pointer name) (known : Assoc.get? defs name = some target) :
    aliasType defs trail last = aliasType defs (path ++ [name]) target := by
  induction ahead with
  | first names' known' _ =>
    obtain rfl := names.unique names'
    obtain rfl := Option.some.inj (known.symm.trans known')
    rfl
  | further _ untyped isAlias names' known' fresh ih =>
    rw [← ih, aliasType_of_reference untyped isAlias (definitionName_eq_ok_iff.mpr names') known' fresh]

/-- A look-ahead that finds a type comes to a definition that declares it. -/
theorem LooksAhead.exists_declared (ahead : LooksAhead defs path pointer trail target)
    (found : aliasType defs trail target = .ok (some kind)) :
    ∃ lastTrail last, LooksAhead defs path pointer lastTrail last ∧ declaredType last = some kind := by
  obtain ⟨lastTrail, last, ahead, isLast, same⟩ := ahead.exists_last
  rw [same] at found
  refine ⟨lastTrail, last, ahead, (declared_or_alias found).resolve_right ?_⟩
  rintro ⟨untyped, link, isAlias⟩
  obtain ⟨next, followed, names, known, fresh, _⟩ := exists_next_of_aliasType untyped isAlias found
  exact fresh (isLast link next followed untyped isAlias names known)

/-- A reference that is replaced calls for the definition and expands like it. -/
theorem calls_of_inlined (isReference : reference? value = some pointer)
    (replaced : referent defs path pointer = .ok (.inlined name target)) :
    Calls defs ⟨path, value⟩ ⟨path ++ [name], target⟩ ∧
      expand defs path value = expand defs (path ++ [name]) target := by
  cases value with
  | object members =>
    refine ⟨.definition isReference replaced, ?_⟩
    rw [expand_reference isReference, replaced, Except.bind]
  | _ => cases isReference

/-- The expansion of a reference goes the way of its look-ahead, where that finds the object type: it
comes to every definition on the way, and all of them expand like the reference. -/
theorem LooksAhead.calls (ahead : LooksAhead defs path pointer trail last)
    (isReference : reference? value = some pointer)
    (found : aliasType defs trail last = .ok (some objectType)) :
    Relation.ReflTransGen (Calls defs) ⟨path, value⟩ ⟨trail, last⟩ ∧
      expand defs path value = expand defs trail last := by
  induction ahead with
  | first names known fresh =>
    obtain ⟨calls, same⟩ :=
      calls_of_inlined isReference (referent_of_objectType names known fresh found)
    exact ⟨.single calls, same⟩
  | further _ untyped isAlias names known fresh ih =>
    have named := definitionName_eq_ok_iff.mpr names
    obtain ⟨run, before⟩ := ih (aliasType_of_reference untyped isAlias named known fresh ▸ found)
    obtain ⟨calls, same⟩ := calls_of_inlined isAlias (referent_of_objectType names known fresh found)
    exact ⟨run.tail calls, before.trans same⟩

/-- The look-ahead from a reference follows the pointer of an alias: it stands at a definition without a
type that is a reference itself, behind the names that it has passed. -/
structure IsLink (defs : Definitions) (path : List String) (pointer : String) (moment : Moment)
    (link : String) : Prop where
  ahead : LooksAhead defs path pointer moment.opened moment.value
  untyped : declaredType moment.value = none
  isAlias : reference? moment.value = some link

/-- **The look-ahead agrees with the expansion.** Where the look-ahead from a reference finds the object
type, what replaces the reference is an object that declares this type. The expansion comes to every
alias that the look-ahead has followed and follows it too, with the same pointer and to the same
definition. So the reference expands like the definition that declares the type, at the end of the way,
and where it fails it stops in the expansion of this definition. -/
theorem look_ahead_agrees_with_expansion (known : Assoc.get? defs name = some target)
    (fresh : name ∉ path) (found : aliasType defs (path ++ [name]) target = .ok (some objectType))
    (names : Names pointer name) (isReference : reference? value = some pointer) :
    (∀ out, expand defs path value = .ok out →
      ∃ outs, out = .object outs ∧ Assoc.get? outs "type" = some (.text "object")) ∧
    (∀ moment link, IsLink defs path pointer moment link →
      Relation.ReflTransGen (Calls defs) ⟨path, value⟩ moment ∧
        ∃ next followed, referent defs moment.opened link = .ok (.inlined next followed) ∧
          LooksAhead defs path pointer (moment.opened ++ [next]) followed) ∧
    ∃ lastTrail last, LooksAhead defs path pointer lastTrail last ∧
      declaredType last = some objectType ∧
      expand defs path value = expand defs lastTrail last ∧
      ∀ e, expand defs path value = .error e → Stops defs e ⟨lastTrail, last⟩ := by
  have first : LooksAhead defs path pointer (path ++ [name]) target := .first names known fresh
  obtain ⟨_, sameAsTarget⟩ := first.calls isReference found
  refine ⟨fun out run ↦ ?_, fun moment link isLink ↦ ?_, ?_⟩
  · rw [sameAsTarget, expand_eq_ok_iff] at run
    exact exists_members_of_declaredType (run.declaredType_eq found)
  · have foundHere := (isLink.ahead.aliasType_eq names known).trans found
    obtain ⟨run, _⟩ := isLink.ahead.calls isReference foundHere
    obtain ⟨next, followed, replaced⟩ :=
      exists_inlined_of_aliasType isLink.untyped isLink.isAlias foundHere
    obtain ⟨named, nextKnown, nextFresh, _⟩ := referent_eq_inlined_iff.mp replaced
    exact ⟨run, next, followed, replaced, isLink.ahead.further isLink.untyped isLink.isAlias
      (definitionName_eq_ok_iff.mp named) nextKnown nextFresh⟩
  · obtain ⟨lastTrail, last, ahead, declared⟩ := first.exists_declared found
    obtain ⟨_, same⟩ := ahead.calls isReference ((ahead.aliasType_eq names known).trans found)
    refine ⟨lastTrail, last, ahead, declared, same, fun e failed ↦ ?_⟩
    rw [same, expand_eq_error_iff] at failed
    exact failed.stops

/-! ### Aliases of a place -/

def toHome : Json := .object [("$ref", .text "#/$defs/home")]

/-- What stands for the type of a home is no word. -/
def toPlace : Json := .object [("$ref", .text "#/definitions/place"), ("type", .null)]

/-- A place declares its type, and points at a word besides. -/
def place : Json := .object [("type", .text "object"), ("$ref", .text "#/$defs/word")]

/-- A house is an alias of a home, and a home is one of a place. -/
def dwellings : Definitions :=
  [("house", toHome), ("home", toPlace), ("place", place), ("word", .object [("type", .text "string")])]

def toHouse : Json := .object [("$ref", .text "#/$defs/house"), ("title", .text "Residence")]

private theorem aliasType_toPlace :
    aliasType dwellings ["page", "house", "home"] toPlace = .ok (some objectType) := by
  have named : definitionName "#/definitions/place" = .ok "place" := by decide
  rw [aliasType_of_reference rfl rfl named rfl (by decide)]
  exact aliasType_of_declaredType rfl _

private theorem aliasType_toHome :
    aliasType dwellings ["page", "house"] toHome = .ok (some objectType) := by
  have named : definitionName "#/$defs/home" = .ok "home" := by decide
  rw [aliasType_of_reference rfl rfl named rfl (by decide)]
  exact aliasType_toPlace

private theorem expands_toHouse :
    Expands dwellings ["page"] toHouse (.object [("type", .text "object")]) := by
  have inlinesHouse : referent dwellings ["page"] "#/$defs/house" = .ok (.inlined "house" toHome) :=
    referent_eq_inlined_iff.mpr ⟨by decide, rfl, by decide, aliasType_toHome⟩
  have inlinesHome : referent dwellings ["page", "house"] "#/$defs/home" = .ok (.inlined "home" toPlace) :=
    referent_eq_inlined_iff.mpr ⟨by decide, rfl, by decide, aliasType_toPlace⟩
  have inlinesPlace : referent dwellings ["page", "house", "home"] "#/definitions/place" =
      .ok (.inlined "place" place) :=
    referent_eq_inlined_iff.mpr ⟨by decide, rfl, by decide, aliasType_of_declaredType rfl _⟩
  have dropsWord : referent dwellings ["page", "house", "home", "place"] "#/$defs/word" = .ok .dropped := by
    have named : definitionName "#/$defs/word" = .ok "word" := by decide
    rw [referent_of_aliasType named rfl (by decide) (aliasType_of_declaredType rfl _)]
    rfl
  exact .inlined rfl inlinesHouse (.inlined rfl inlinesHome (.inlined rfl inlinesPlace
    (.dropped rfl dropsWord (.cons (expands_text _ _) .nil))))

/-- A house is replaced by an object, along two aliases, and the place at their end loses its pointer. -/
theorem house_expands_to_object :
    Assoc.get? dwellings "house" = some toHome ∧ "house" ∉ ["page"] ∧
      aliasType dwellings ["page", "house"] toHome = .ok (some objectType) ∧
      (∃ outs, expand dwellings ["page"] toHouse = .ok (.object outs) ∧
        Assoc.get? outs "type" = some (.text "object")) ∧
      ∃ next followed,
        referent dwellings ["page", "house"] "#/$defs/home" = .ok (.inlined next followed) := by
  have names : Names "#/$defs/house" "house" := definitionName_eq_ok_iff.mp (by decide)
  have fresh : "house" ∉ ["page"] := by decide
  have isReference : reference? toHouse = some "#/$defs/house" := rfl
  have run := expand_eq_ok_iff.mpr expands_toHouse
  obtain ⟨typed, links, _⟩ :=
    look_ahead_agrees_with_expansion rfl fresh aliasType_toHome names isReference
  obtain ⟨outs, same, declared⟩ := typed _ run
  have first : LooksAhead dwellings ["page"] "#/$defs/house" ["page", "house"] toHome :=
    .first names rfl fresh
  obtain ⟨_, next, followed, replaced, _⟩ :=
    links ⟨["page", "house"], toHome⟩ "#/$defs/home" ⟨first, rfl, rfl⟩
  exact ⟨rfl, fresh, aliasType_toHome, ⟨outs, same ▸ run, declared⟩, next, followed, replaced⟩

end VerbForms.Schema
