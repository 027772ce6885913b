import VerbForms.Proofs.Schema.Expands
import VerbForms.Proofs.Schema.Pointer

/-!
# Bad references

The referent type of a name is found along its alias chain (`ReferentType`), and a chain can run into
a pointer that cannot be followed (`ChainStuck`). Neither relation mentions the look-ahead: it
returns the referent type where it succeeds (`referentType_of_aliasType`) and fails exactly on the
chains that get stuck. So it is decided what becomes of a reference exactly if the reference is not
bad (`badReference_of_referent`, `not_badReference_of_referent`).
-/

namespace VerbForms.Schema

variable {defs : Definitions} {opened trail : List String} {pointer name next : String}
variable {target : Json} {kind kind' : Option String}

/-- The referent type of a name: its definition's own type, else that of the name that the definition
points at, else none. -/
inductive ReferentType (defs : Definitions) : String → Option String → Prop where
  | declared {name kind : String} {target : Json} (known : Assoc.get? defs name = some target)
      (declares : declaredType target = some kind) : ReferentType defs name (some kind)
  | untyped {name : String} {target : Json} (known : Assoc.get? defs name = some target)
      (untyped : declaredType target = none) (noAlias : reference? target = none) :
      ReferentType defs name none
  | aliased {name pointer next : String} {target : Json} {kind : Option String}
      (known : Assoc.get? defs name = some target) (untyped : declaredType target = none)
      (isAlias : reference? target = some pointer) (names : Names pointer next)
      (typed : ReferentType defs next kind) : ReferentType defs name kind

/-- A pointer cannot be followed: it names nothing, what it names is not defined, or it is open. -/
inductive Stuck (defs : Definitions) (opened : List String) (pointer : String) : Prop where
  | unsupported (nameless : ∀ name, ¬ Names pointer name)
  | unresolved {name : String} (names : Names pointer name) (unknown : Assoc.get? defs name = none)
  | cyclic {name : String} (names : Names pointer name) (isOpen : name ∈ opened)

/-- The alias chain of a name runs into a pointer that cannot be followed, where the names that have
been passed are open too. -/
inductive ChainStuck (defs : Definitions) : List String → String → Prop where
  | here {opened : List String} {name pointer : String} {target : Json}
      (known : Assoc.get? defs name = some target) (untyped : declaredType target = none)
      (isAlias : reference? target = some pointer) (stuck : Stuck defs (opened ++ [name]) pointer) :
      ChainStuck defs opened name
  | further {opened : List String} {name pointer next : String} {target : Json}
      (known : Assoc.get? defs name = some target) (untyped : declaredType target = none)
      (isAlias : reference? target = some pointer) (names : Names pointer next)
      (chain : ChainStuck defs (opened ++ [name]) next) : ChainStuck defs opened name

/-- A reference is bad: its pointer cannot be followed, or its alias chain gets stuck. -/
def BadReference (defs : Definitions) (opened : List String) (pointer : String) : Prop :=
  Stuck defs opened pointer ∨ ∃ name, Names pointer name ∧ ChainStuck defs opened name

/-! ### Referent types -/

theorem ReferentType.unique (typed : ReferentType defs name kind)
    (typed' : ReferentType defs name kind') : kind = kind' := by
  -- Two different rules would read the definition in two different ways.
  induction typed with
  | declared known declares => cases typed' <;> simp_all
  | untyped known untyped noAlias => cases typed' <;> simp_all
  | aliased known untyped isAlias names _ ih =>
    cases typed' with
    | declared known' declares' => simp_all
    | untyped known' _ noAlias' => simp_all
    | aliased known' _ isAlias' names' typed' =>
      obtain rfl := Option.some.inj (known.symm.trans known')
      obtain rfl := Option.some.inj (isAlias.symm.trans isAlias')
      exact ih (names.unique names' ▸ typed')

/-- A look-ahead that succeeds finds the referent type. -/
theorem referentType_of_aliasType (known : Assoc.get? defs name = some target)
    (found : aliasType defs trail target = .ok kind) : ReferentType defs name kind := by
  fun_induction aliasType defs trail target generalizing name with
  | case1 trail target own declares =>
    obtain rfl := Except.ok.inj found
    exact .declared known declares
  | case2 trail target untyped noAlias =>
    obtain rfl := Except.ok.inj found
    exact .untyped known untyped noAlias
  | case3 => cases found
  | case4 => cases found
  | case5 => cases found
  | case6 trail target untyped pointer isAlias next named nextTarget known' fresh ih =>
    exact .aliased known untyped isAlias (definitionName_eq_ok_iff.mp named) (ih known' found)

/-! ### Alias chains -/

/-- A look-ahead that succeeds at an alias follows it to a definition that is not open. -/
theorem exists_next_of_aliasType (untyped : declaredType target = none)
    (isAlias : reference? target = some pointer) (found : aliasType defs trail target = .ok kind) :
    ∃ next nextTarget, Names pointer next ∧ Assoc.get? defs next = some nextTarget ∧
      next ∉ trail ∧ aliasType defs (trail ++ [next]) nextTarget = .ok kind := by
  rw [aliasType, untyped] at found
  simp only [isAlias] at found
  split at found
  · cases found
  · next next named =>
    split at found
    · cases found
    · next nextTarget known =>
      split at found
      · cases found
      · next fresh => exact ⟨next, nextTarget, definitionName_eq_ok_iff.mp named, known, fresh, found⟩

/-- What can be followed is not stuck. -/
theorem not_stuck (names : Names pointer name) (known : Assoc.get? defs name = some target)
    (fresh : name ∉ opened) : ¬ Stuck defs opened pointer := by
  rintro (nameless | ⟨names', unknown⟩ | ⟨names', isOpen⟩)
  · exact nameless name names
  · rw [← names.unique names', known] at unknown
    cases unknown
  · exact fresh (names.unique names' ▸ isOpen)

/-- No look-ahead succeeds on a chain that gets stuck. -/
theorem ChainStuck.aliasType_ne_ok (chain : ChainStuck defs opened name)
    (known : Assoc.get? defs name = some target) :
    aliasType defs (opened ++ [name]) target ≠ .ok kind := by
  intro found
  induction chain generalizing target with
  | here known' untyped isAlias stuck =>
    obtain rfl := Option.some.inj (known.symm.trans known')
    obtain ⟨next, nextTarget, names, nextKnown, fresh, _⟩ :=
      exists_next_of_aliasType untyped isAlias found
    exact not_stuck names nextKnown fresh stuck
  | further known' untyped isAlias names _ ih =>
    obtain rfl := Option.some.inj (known.symm.trans known')
    obtain ⟨next, nextTarget, names', nextKnown, _, found⟩ :=
      exists_next_of_aliasType untyped isAlias found
    obtain rfl := names.unique names'
    exact ih nextKnown found

/-- A look-ahead that fails has run into a pointer that cannot be followed. -/
theorem chainStuck_of_aliasType {e : SchemaError} (known : Assoc.get? defs name = some target)
    (failed : aliasType defs (opened ++ [name]) target = .error e) :
    ChainStuck defs opened name := by
  generalize trailIs : opened ++ [name] = trail at failed
  fun_induction aliasType defs trail target generalizing opened name with
  | case1 => cases failed
  | case2 => cases failed
  | case3 trail target untyped pointer isAlias e' named =>
    exact .here known untyped isAlias (.unsupported (definitionName_eq_error_iff.mp named).1)
  | case4 trail target untyped pointer isAlias next named unknown =>
    exact .here known untyped isAlias (.unresolved (definitionName_eq_ok_iff.mp named) unknown)
  | case5 trail target untyped pointer isAlias next named nextTarget nextKnown isOpen =>
    have names := definitionName_eq_ok_iff.mp named
    exact .here known untyped isAlias (.cyclic names (trailIs ▸ isOpen))
  | case6 trail target untyped pointer isAlias next named nextTarget nextKnown fresh ih =>
    have names := definitionName_eq_ok_iff.mp named
    exact .further known untyped isAlias names (ih nextKnown (trailIs ▸ rfl) failed)

/-! ### References -/

theorem badReference_of_referent {e : SchemaError} (failed : referent defs opened pointer = .error e) :
    BadReference defs opened pointer := by
  unfold referent at failed
  split at failed
  · next named => exact .inl (.unsupported (definitionName_eq_error_iff.mp named).1)
  · next name named =>
    have names := definitionName_eq_ok_iff.mp named
    split at failed
    · next unknown => exact .inl (.unresolved names unknown)
    · next target known =>
      split at failed
      · next isOpen => exact .inl (.cyclic names isOpen)
      · split at failed
        · next lost => exact .inr ⟨name, names, chainStuck_of_aliasType known lost⟩
        · split at failed <;> cases failed

theorem not_badReference_of_referent {becomes : Referent}
    (found : referent defs opened pointer = .ok becomes) : ¬ BadReference defs opened pointer := by
  obtain ⟨name, target, kind, named, known, fresh, typed, _⟩ := exists_aliasType_of_referent found
  have names := definitionName_eq_ok_iff.mp named
  rintro (stuck | ⟨name', names', chain⟩)
  · exact not_stuck names known fresh stuck
  · obtain rfl := names.unique names'
    exact chain.aliasType_ne_ok known typed

/-- A reference that is replaced names a definition of object type. -/
theorem referentType_of_inlined
    (replaced : referent defs opened pointer = .ok (.inlined name target)) :
    Names pointer name ∧ Assoc.get? defs name = some target ∧
      ReferentType defs name (some objectType) := by
  obtain ⟨named, known, _, typed⟩ := referent_eq_inlined_iff.mp replaced
  exact ⟨definitionName_eq_ok_iff.mp named, known, referentType_of_aliasType known typed⟩

/-- A reference that is dropped names a definition of another type. -/
theorem not_referentType_of_dropped (scalar : referent defs opened pointer = .ok .dropped) :
    ∃ name, Names pointer name ∧ ¬ ReferentType defs name (some objectType) := by
  obtain ⟨name, target, kind, named, known, _, typed, becomes⟩ :=
    exists_aliasType_of_referent scalar
  refine ⟨name, definitionName_eq_ok_iff.mp named, fun isObject ↦ ?_⟩
  rw [if_pos ((referentType_of_aliasType known typed).unique isObject)] at becomes
  cases becomes

/-- A reference to a definition of object type is replaced, if it is decided what becomes of it. -/
theorem exists_inlined_of_referentType {becomes : Referent}
    (decided : referent defs opened pointer = .ok becomes) (names : Names pointer name)
    (typed : ReferentType defs name (some objectType)) :
    ∃ target, becomes = .inlined name target := by
  cases becomes with
  | inlined other target =>
    obtain ⟨names', _, _⟩ := referentType_of_inlined decided
    obtain rfl := names.unique names'
    exact ⟨target, rfl⟩
  | dropped =>
    obtain ⟨other, names', noObject⟩ := not_referentType_of_dropped decided
    exact absurd (names.unique names' ▸ typed) noObject

/-- A reference to any other definition is dropped, if it is decided what becomes of it. -/
theorem eq_dropped_of_not_referentType {becomes : Referent}
    (decided : referent defs opened pointer = .ok becomes) (names : Names pointer name)
    (scalar : ¬ ReferentType defs name (some objectType)) : becomes = .dropped := by
  cases becomes with
  | inlined other target =>
    obtain ⟨names', _, typed⟩ := referentType_of_inlined decided
    exact absurd (names.unique names' ▸ typed) scalar
  | dropped => rfl

end VerbForms.Schema
