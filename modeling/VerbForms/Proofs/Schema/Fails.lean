import VerbForms.Proofs.Schema.Expands

/-!
# Failing expansion

`Fails` relates a value to the error that its expansion stops on, with one rule for each place where
the recursion can stop (`expand_eq_error_iff`). Parts are expanded in order, so all that stands before
the failing part has expanded.
-/

namespace VerbForms.Schema

variable {defs : Definitions} {path : List String} {value : Json} {members : Members}
variable {items : List Json} {pointer name : String} {target : Json} {e : SchemaError}

/-! ### References that are refused -/

/-- The look-ahead refuses an alias of a definition that it has passed. -/
theorem aliasType_of_passed {trail : List String} {next : Json}
    (untyped : declaredType target = none) (isAlias : reference? target = some pointer)
    (named : definitionName pointer = .ok name) (known : Assoc.get? defs name = some next)
    (passed : name ∈ trail) :
    aliasType defs trail target = .error (.cyclic pointer (trail ++ [name])) :=
  (aliasType_of_alias untyped isAlias named known).trans (if_pos passed)

/-- A reference to an open definition is refused. -/
theorem referent_of_open (named : definitionName pointer = .ok name)
    (known : Assoc.get? defs name = some target) (isOpen : name ∈ path) :
    referent defs path pointer = .error (.cyclic pointer (path ++ [name])) := by
  rw [referent, named]
  simp only [known, isOpen, if_true]

/-- A reference whose look-ahead is refused is refused. -/
theorem referent_of_aliasType_error (named : definitionName pointer = .ok name)
    (known : Assoc.get? defs name = some target) (fresh : name ∉ path)
    (refused : aliasType defs (path ++ [name]) target = .error e) :
    referent defs path pointer = .error e := by
  rw [referent, named]
  simp only [known, fresh, refused, if_false]

/-! ### Rules -/

mutual

/-- The expansion of a value on a path of open definitions stops on an error. -/
inductive Fails (defs : Definitions) (e : SchemaError) : List String → Json → Prop where
  | reference {path : List String} {members : Members} {pointer : String}
      (reference : pointer? members = some pointer) (failed : referent defs path pointer = .error e) :
      Fails defs e path (.object members)
  | inlined {path : List String} {members : Members} {pointer name : String} {target : Json}
      (reference : pointer? members = some pointer)
      (replaced : referent defs path pointer = .ok (.inlined name target))
      (fails : Fails defs e (path ++ [name]) target) : Fails defs e path (.object members)
  | dropped {path : List String} {members : Members} {pointer : String}
      (reference : pointer? members = some pointer)
      (scalar : referent defs path pointer = .ok .dropped)
      (fails : FailsMembers defs e path (siblings members)) : Fails defs e path (.object members)
  | object {path : List String} {members : Members} (plain : pointer? members = none)
      (fails : FailsMembers defs e path members) : Fails defs e path (.object members)
  | array {path : List String} {items : List Json} (fails : FailsItems defs e path items) :
      Fails defs e path (.array items)

/-- The first item that does not expand stops on an error. -/
inductive FailsItems (defs : Definitions) (e : SchemaError) : List String → List Json → Prop where
  | head {path : List String} {item : Json} {rest : List Json} (fails : Fails defs e path item) :
      FailsItems defs e path (item :: rest)
  | tail {path : List String} {item out : Json} {rest : List Json}
      (expands : Expands defs path item out) (fails : FailsItems defs e path rest) :
      FailsItems defs e path (item :: rest)

/-- The first member that does not expand stops on an error. -/
inductive FailsMembers (defs : Definitions) (e : SchemaError) : List String → Members → Prop where
  | head {path : List String} {key : String} {value : Json} {rest : Members}
      (fails : Fails defs e path value) : FailsMembers defs e path ((key, value) :: rest)
  | tail {path : List String} {key : String} {value out : Json} {rest : Members}
      (expands : Expands defs path value out) (fails : FailsMembers defs e path rest) :
      FailsMembers defs e path ((key, value) :: rest)

end

/-! ### Derivations and runs -/

private theorem fails_of_runs (defs : Definitions) (e : SchemaError) :
    (∀ path value, expand defs path value = .error e → Fails defs e path value) ∧
    (∀ path items, expandItems defs path items = .error e → FailsItems defs e path items) ∧
    (∀ path members, expandMembers defs path members = .error e →
      FailsMembers defs e path members) := by
  apply expand.mutual_induct
  case case1 =>
    intro path members pointer reference e' failed run
    rw [expand_reference reference, failed] at run
    obtain rfl := Except.error.inj run
    exact .reference reference failed
  case case2 =>
    intro path members pointer reference name target replaced ih run
    rw [expand_reference reference, replaced] at run
    exact .inlined reference replaced (ih run)
  case case3 =>
    intro path members pointer reference scalar ih run
    rw [expand_reference reference, scalar] at run
    exact .dropped reference scalar (ih (map_eq_error.mp run))
  case case4 =>
    intro path members plain ih run
    rw [expand_plain plain] at run
    exact .object plain (ih (map_eq_error.mp run))
  case case5 =>
    intro path items ih run
    rw [expand] at run
    exact .array (ih (map_eq_error.mp run))
  case case6 =>
    intro path value noObject noArray run
    rw [expand_leaf noObject noArray] at run
    cases run
  case case7 =>
    intro path run
    rw [expandItems] at run
    cases run
  case case8 =>
    intro path item rest ihItem ihRest run
    rw [expandItems] at run
    rcases bind_eq_error.mp run with first | ⟨out, runItem, run⟩
    · exact .head (ihItem first)
    · rcases bind_eq_error.mp run with later | ⟨outs, _, done⟩
      · exact .tail (expand_eq_ok_iff.mp runItem) (ihRest later)
      · cases done
  case case9 =>
    intro path run
    rw [expandMembers] at run
    cases run
  case case10 =>
    intro path key value rest ihValue ihRest run
    rw [expandMembers] at run
    rcases bind_eq_error.mp run with first | ⟨out, runValue, run⟩
    · exact .head (ihValue first)
    · rcases bind_eq_error.mp run with later | ⟨outs, _, done⟩
      · exact .tail (expand_eq_ok_iff.mp runValue) (ihRest later)
      · cases done

mutual

private theorem Fails.run {path : List String} {value : Json} :
    Fails defs e path value → expand defs path value = .error e
  | .reference reference failed => by
    rw [expand_reference reference, failed]
    rfl
  | .inlined reference replaced fails => by
    rw [expand_reference reference, replaced]
    exact fails.run
  | .dropped reference scalar fails => by
    rw [expand_reference reference, scalar]
    exact map_eq_error.mpr fails.run
  | .object plain fails => by
    rw [expand_plain plain]
    exact map_eq_error.mpr fails.run
  | .array fails => by
    rw [expand]
    exact map_eq_error.mpr fails.run

private theorem FailsItems.run {path : List String} {items : List Json} :
    FailsItems defs e path items → expandItems defs path items = .error e
  | .head fails => by
    rw [expandItems]
    exact bind_eq_error.mpr (.inl fails.run)
  | .tail expands fails => by
    rw [expandItems]
    refine bind_eq_error.mpr (.inr ⟨_, expand_eq_ok_iff.mpr expands, ?_⟩)
    exact bind_eq_error.mpr (.inl fails.run)

private theorem FailsMembers.run {path : List String} {members : Members} :
    FailsMembers defs e path members → expandMembers defs path members = .error e
  | .head fails => by
    rw [expandMembers]
    exact bind_eq_error.mpr (.inl fails.run)
  | .tail expands fails => by
    rw [expandMembers]
    refine bind_eq_error.mpr (.inr ⟨_, expand_eq_ok_iff.mpr expands, ?_⟩)
    exact bind_eq_error.mpr (.inl fails.run)

end

/-- `expand` fails exactly as the rules say. -/
theorem expand_eq_error_iff : expand defs path value = .error e ↔ Fails defs e path value :=
  ⟨(fails_of_runs defs e).1 path value, Fails.run⟩

theorem expandMembers_eq_error_iff :
    expandMembers defs path members = .error e ↔ FailsMembers defs e path members :=
  ⟨(fails_of_runs defs e).2.2 path members, FailsMembers.run⟩

end VerbForms.Schema
