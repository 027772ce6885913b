import VerbForms.Schema.Expansion
import VerbForms.Proofs.Json.Position
import VerbForms.Proofs.Success

/-!
# Successful expansion

`Expands` relates a value to what `expand` makes of it where it succeeds, with one rule for each
step of the recursion (`expand_eq_ok_iff`). Results about whole expansions are inductions over its
derivations.
-/

namespace VerbForms.Schema

variable {defs : Definitions} {path : List String} {value out : Json} {members outs : Members}
variable {pointer name : String} {target : Json}

mutual

/-- A value expands to another one on a path of open definitions. -/
inductive Expands (defs : Definitions) : List String → Json → Json → Prop where
  | inlined {path : List String} {members : Members} {pointer name : String} {target out : Json}
      (reference : pointer? members = some pointer)
      (replaced : referent defs path pointer = .ok (.inlined name target))
      (expands : Expands defs (path ++ [name]) target out) :
      Expands defs path (.object members) out
  | dropped {path : List String} {members outs : Members} {pointer : String}
      (reference : pointer? members = some pointer)
      (scalar : referent defs path pointer = .ok .dropped)
      (expands : ExpandsMembers defs path (siblings members) outs) :
      Expands defs path (.object members) (.object outs)
  | object {path : List String} {members outs : Members} (plain : pointer? members = none)
      (expands : ExpandsMembers defs path members outs) :
      Expands defs path (.object members) (.object outs)
  | array {path : List String} {items outs : List Json} (expands : ExpandsItems defs path items outs) :
      Expands defs path (.array items) (.array outs)
  | leaf {path : List String} {value : Json} (noObject : ∀ members, value ≠ .object members)
      (noArray : ∀ items, value ≠ .array items) : Expands defs path value value

/-- Items expand one by one. -/
inductive ExpandsItems (defs : Definitions) : List String → List Json → List Json → Prop where
  | nil {path : List String} : ExpandsItems defs path [] []
  | cons {path : List String} {item out : Json} {rest outs : List Json}
      (head : Expands defs path item out) (tail : ExpandsItems defs path rest outs) :
      ExpandsItems defs path (item :: rest) (out :: outs)

/-- Members expand one by one, under the same keys. -/
inductive ExpandsMembers (defs : Definitions) : List String → Members → Members → Prop where
  | nil {path : List String} : ExpandsMembers defs path [] []
  | cons {path : List String} {key : String} {value out : Json} {rest outs : Members}
      (head : Expands defs path value out) (tail : ExpandsMembers defs path rest outs) :
      ExpandsMembers defs path ((key, value) :: rest) ((key, out) :: outs)

end

/-! ### Derivations and runs -/

theorem expand_reference (reference : pointer? members = some pointer) :
    expand defs path (.object members) =
      (referent defs path pointer).bind fun
        | .inlined name target => expand defs (path ++ [name]) target
        | .dropped => Json.object <$> expandMembers defs path (siblings members) := by
  rw [expand]
  split
  · next found =>
    obtain rfl := Option.some.inj (reference.symm.trans found)
    split
    · next failed => rw [failed, Except.bind]
    · next replaced => rw [replaced, Except.bind]
    · next scalar => rw [scalar, Except.bind]
  · next missing =>
    rw [reference] at missing
    cases missing

theorem expand_plain (plain : pointer? members = none) :
    expand defs path (.object members) = Json.object <$> expandMembers defs path members := by
  rw [expand]
  split
  · next found =>
    rw [plain] at found
    cases found
  · rfl

theorem expand_leaf (noObject : ∀ members, value ≠ .object members)
    (noArray : ∀ items, value ≠ .array items) : expand defs path value = .ok value := by
  cases value with
  | object members => exact absurd rfl (noObject members)
  | array items => exact absurd rfl (noArray items)
  | _ => rw [expand] <;> simp

private theorem expands_of_runs (defs : Definitions) :
    (∀ path value, ∀ out, expand defs path value = .ok out → Expands defs path value out) ∧
    (∀ path items, ∀ outs, expandItems defs path items = .ok outs →
      ExpandsItems defs path items outs) ∧
    (∀ path members, ∀ outs, expandMembers defs path members = .ok outs →
      ExpandsMembers defs path members outs) := by
  apply expand.mutual_induct
  case case1 =>
    intro path members pointer reference e failed out run
    rw [expand_reference reference, failed] at run
    cases run
  case case2 =>
    intro path members pointer reference name target replaced ih out run
    rw [expand_reference reference, replaced] at run
    exact .inlined reference replaced (ih out run)
  case case3 =>
    intro path members pointer reference scalar ih out run
    rw [expand_reference reference, scalar] at run
    obtain ⟨outs, runs, rfl⟩ := map_eq_ok.mp run
    exact .dropped reference scalar (ih outs runs)
  case case4 =>
    intro path members plain ih out run
    rw [expand_plain plain] at run
    obtain ⟨outs, runs, rfl⟩ := map_eq_ok.mp run
    exact .object plain (ih outs runs)
  case case5 =>
    intro path items ih out run
    rw [expand] at run
    obtain ⟨outs, runs, rfl⟩ := map_eq_ok.mp run
    exact .array (ih outs runs)
  case case6 =>
    intro path value noObject noArray out run
    rw [expand_leaf noObject noArray] at run
    obtain rfl := Except.ok.inj run
    exact .leaf noObject noArray
  case case7 =>
    intro path outs run
    rw [expandItems] at run
    obtain rfl := Except.ok.inj run
    exact .nil
  case case8 =>
    intro path item rest ihItem ihRest outs run
    rw [expandItems] at run
    obtain ⟨out, runItem, run⟩ := bind_eq_ok.mp run
    obtain ⟨outs, runRest, run⟩ := bind_eq_ok.mp run
    obtain rfl := pure_eq_ok.mp run
    exact .cons (ihItem out runItem) (ihRest outs runRest)
  case case9 =>
    intro path outs run
    rw [expandMembers] at run
    obtain rfl := Except.ok.inj run
    exact .nil
  case case10 =>
    intro path key value rest ihValue ihRest outs run
    rw [expandMembers] at run
    obtain ⟨out, runValue, run⟩ := bind_eq_ok.mp run
    obtain ⟨outs, runRest, run⟩ := bind_eq_ok.mp run
    obtain rfl := pure_eq_ok.mp run
    exact .cons (ihValue out runValue) (ihRest outs runRest)

mutual

private theorem Expands.run {path : List String} {value out : Json} :
    Expands defs path value out → expand defs path value = .ok out
  | .inlined reference replaced expands => by
    rw [expand_reference reference, replaced]
    exact expands.run
  | .dropped reference scalar expands => by
    rw [expand_reference reference, scalar]
    exact map_eq_ok.mpr ⟨_, expands.run, rfl⟩
  | .object plain expands => by
    rw [expand_plain plain]
    exact map_eq_ok.mpr ⟨_, expands.run, rfl⟩
  | .array expands => by
    rw [expand]
    exact map_eq_ok.mpr ⟨_, expands.run, rfl⟩
  | .leaf noObject noArray => expand_leaf noObject noArray

private theorem ExpandsItems.run {path : List String} {items outs : List Json} :
    ExpandsItems defs path items outs → expandItems defs path items = .ok outs
  | .nil => by rw [expandItems]
  | .cons head tail => by
    rw [expandItems]
    exact bind_eq_ok.mpr ⟨_, head.run, bind_eq_ok.mpr ⟨_, tail.run, rfl⟩⟩

private theorem ExpandsMembers.run {path : List String} {members outs : Members} :
    ExpandsMembers defs path members outs → expandMembers defs path members = .ok outs
  | .nil => by rw [expandMembers]
  | .cons head tail => by
    rw [expandMembers]
    exact bind_eq_ok.mpr ⟨_, head.run, bind_eq_ok.mpr ⟨_, tail.run, rfl⟩⟩

end

/-- `expand` succeeds exactly as the rules say. -/
theorem expand_eq_ok_iff : expand defs path value = .ok out ↔ Expands defs path value out :=
  ⟨(expands_of_runs defs).1 path value out, Expands.run⟩

theorem expandMembers_eq_ok_iff :
    expandMembers defs path members = .ok outs ↔ ExpandsMembers defs path members outs :=
  ⟨(expands_of_runs defs).2.2 path members outs, ExpandsMembers.run⟩

theorem expands_text (path : List String) (text : String) :
    Expands defs path (.text text) (.text text) := by
  apply Expands.leaf
  · intro members same
    cases same
  · intro items same
    cases same

theorem expands_plain_iff (plain : pointer? members = none) :
    Expands defs path (.object members) out ↔
      ∃ outs, ExpandsMembers defs path members outs ∧ Json.object outs = out := by
  rw [← expand_eq_ok_iff, expand_plain plain, map_eq_ok]
  simp only [expandMembers_eq_ok_iff]

theorem expands_dropped_iff (reference : pointer? members = some pointer)
    (scalar : referent defs path pointer = .ok .dropped) :
    Expands defs path (.object members) out ↔
      ∃ outs, ExpandsMembers defs path (siblings members) outs ∧ Json.object outs = out := by
  rw [← expand_eq_ok_iff, expand_reference reference, scalar, Except.bind, map_eq_ok]
  simp only [expandMembers_eq_ok_iff]

theorem expands_inlined_iff (reference : pointer? members = some pointer)
    (replaced : referent defs path pointer = .ok (.inlined name target)) :
    Expands defs path (.object members) out ↔ Expands defs (path ++ [name]) target out := by
  rw [← expand_eq_ok_iff, expand_reference reference, replaced, Except.bind, expand_eq_ok_iff]

/-- A reference expands only if it is decided what becomes of it. -/
theorem Expands.exists_referent (expands : Expands defs path value out)
    (reference : reference? value = some pointer) :
    ∃ becomes, referent defs path pointer = .ok becomes := by
  cases expands with
  | inlined reference' replaced _ =>
    obtain rfl := Option.some.inj (reference.symm.trans reference')
    exact ⟨_, replaced⟩
  | dropped reference' scalar _ =>
    obtain rfl := Option.some.inj (reference.symm.trans reference')
    exact ⟨_, scalar⟩
  | object plain _ =>
    have plain' : reference? (.object _) = none := plain
    rw [reference] at plain'
    cases plain'
  | array _ => cases reference
  | leaf noObject _ =>
    cases value with
    | object members => exact absurd rfl (noObject members)
    | _ => cases reference

/-! ### What expansion keeps -/

/-- Only objects have a type. -/
theorem exists_object_of_aliasType {trail : List String} {kind : String}
    (h : aliasType defs trail target = .ok (some kind)) : ∃ members, target = .object members := by
  cases target with
  | object members => exact ⟨members, rfl⟩
  | _ =>
    rw [aliasType] at h
    cases h

theorem aliasType_of_declaredType {kind : String} (declared : declaredType target = some kind)
    (trail : List String) : aliasType defs trail target = .ok (some kind) := by
  rw [aliasType, declared]

/-- The look-ahead follows an alias to a known definition, or refuses one that it has passed. -/
theorem aliasType_of_alias {trail : List String} {next : Json}
    (untyped : declaredType target = none) (isAlias : reference? target = some pointer)
    (named : definitionName pointer = .ok name) (known : Assoc.get? defs name = some next) :
    aliasType defs trail target =
      if name ∈ trail then .error (.cyclic pointer (trail ++ [name]))
      else aliasType defs (trail ++ [name]) next := by
  rw [aliasType, untyped]
  simp only [isAlias, named]
  split
  · next missing =>
    rw [known] at missing
    cases missing
  · next found =>
    obtain rfl := Option.some.inj (known.symm.trans found)
    rfl

/-- The look-ahead follows an alias to a known definition that it has not met yet. -/
theorem aliasType_of_reference {trail : List String} {next : Json}
    (untyped : declaredType target = none) (isAlias : reference? target = some pointer)
    (named : definitionName pointer = .ok name) (known : Assoc.get? defs name = some next)
    (fresh : name ∉ trail) : aliasType defs trail target = aliasType defs (trail ++ [name]) next :=
  (aliasType_of_alias untyped isAlias named known).trans (if_neg fresh)

/-- A known definition that is not open decides by its type what becomes of a reference. -/
theorem referent_of_aliasType (named : definitionName pointer = .ok name)
    (known : Assoc.get? defs name = some target) (fresh : name ∉ path) {kind : Option String}
    (found : aliasType defs (path ++ [name]) target = .ok kind) :
    referent defs path pointer =
      .ok (if kind = some objectType then .inlined name target else .dropped) := by
  rw [referent, named]
  simp only [known, fresh, found, if_false]
  split <;> rfl

/-- What is looked at before it is decided what becomes of a reference. -/
theorem exists_aliasType_of_referent {becomes : Referent}
    (found : referent defs path pointer = .ok becomes) :
    ∃ name target kind, definitionName pointer = .ok name ∧ Assoc.get? defs name = some target ∧
      name ∉ path ∧ aliasType defs (path ++ [name]) target = .ok kind ∧
      becomes = if kind = some objectType then .inlined name target else .dropped := by
  unfold referent at found
  split at found
  · cases found
  · next name named =>
    split at found
    · cases found
    · next target known =>
      split at found
      · cases found
      · next fresh =>
        split at found
        · cases found
        · next kind typed =>
          refine ⟨name, target, kind, named, known, fresh, typed, ?_⟩
          split at found
          · next isObject => rw [if_pos isObject, Except.ok.inj found]
          · next noObject => rw [if_neg noObject, Except.ok.inj found]

/-- A reference is replaced exactly if the definition that it names is known, not open and of
object type. -/
theorem referent_eq_inlined_iff :
    referent defs path pointer = .ok (.inlined name target) ↔
      definitionName pointer = .ok name ∧ Assoc.get? defs name = some target ∧ name ∉ path ∧
        aliasType defs (path ++ [name]) target = .ok (some objectType) := by
  constructor
  · intro replaced
    obtain ⟨_, _, kind, named, known, fresh, typed, becomes⟩ := exists_aliasType_of_referent replaced
    split at becomes
    · next isObject =>
      cases becomes
      exact ⟨named, known, fresh, isObject ▸ typed⟩
    · cases becomes
  · rintro ⟨named, known, fresh, typed⟩
    rw [referent_of_aliasType named known fresh typed, if_pos rfl]

/-- Only objects replace references. -/
theorem exists_object_of_inlined
    (replaced : referent defs path pointer = .ok (.inlined name target)) :
    ∃ members, target = .object members :=
  exists_object_of_aliasType (referent_eq_inlined_iff.mp replaced).2.2.2

/-- Objects expand to objects, references among them, and nothing else does. -/
theorem Expands.isSome_members? {path : List String} {value out : Json} :
    Expands defs path value out → out.members?.isSome = value.members?.isSome
  | .inlined _ replaced expands => by
    have same := expands.isSome_members?
    obtain ⟨members, rfl⟩ := exists_object_of_inlined replaced
    exact same
  | .dropped _ _ _ => rfl
  | .object _ _ => rfl
  | .array _ => rfl
  | .leaf _ _ => rfl

theorem Expands.exists_object (h : Expands defs path (.object members) out) :
    ∃ outs, out = .object outs := by
  have some := h.isSome_members?
  cases out with
  | object outs => exact ⟨outs, rfl⟩
  | _ => cases some

/-- Texts expand to themselves and nothing else expands to a text. -/
theorem Expands.text?_eq (h : Expands defs path value out) : out.text? = value.text? := by
  cases h with
  | inlined _ replaced expands =>
    obtain ⟨members, rfl⟩ := exists_object_of_inlined replaced
    obtain ⟨outs, rfl⟩ := expands.exists_object
    rfl
  | _ => rfl

theorem ExpandsMembers.aligned {path : List String} {members outs : Members} :
    ExpandsMembers defs path members outs →
      Assoc.Aligned (fun _ ↦ Expands defs path) members outs
  | .nil => .nil
  | .cons head tail => .cons head tail.aligned

theorem expandsMembers_iff :
    ExpandsMembers defs path members outs ↔
      Assoc.Aligned (fun _ ↦ Expands defs path) members outs := by
  refine ⟨ExpandsMembers.aligned, fun aligned ↦ ?_⟩
  induction aligned with
  | nil => exact .nil
  | cons head _ ih => exact .cons head ih

/-- A member's expansion stands one step down. -/
theorem ExpandsMembers.exists_child? {key : String} (h : ExpandsMembers defs path members outs)
    (found : Assoc.get? members key = some value) :
    ∃ out, (Json.object outs).child? (.member key) = some out ∧ Expands defs path value out :=
  h.aligned.exists_right found

/-- An item's expansion stands one step down. -/
theorem ExpandsItems.exists_child? {items outs : List Json} {index : Nat}
    (h : ExpandsItems defs path items outs) (found : items[index]? = some value) :
    ∃ out, (Json.array outs).child? (.item index) = some out ∧ Expands defs path value out := by
  induction items generalizing outs index with
  | nil => cases found
  | cons item rest ih =>
    cases h with
    | cons head tail =>
      cases index with
      | zero =>
        cases found
        exact ⟨_, rfl, head⟩
      | succ index =>
        obtain ⟨out, step, expands⟩ := ih tail found
        exact ⟨out, step, expands⟩

/-- Members that keep their texts have the same text under a key. -/
theorem text?_get?_of_aligned {r : String → Json → Json → Prop} {key : String}
    (aligned : Assoc.Aligned r members outs)
    (texts : ∀ value out, r key value out → out.text? = value.text?) :
    (Assoc.get? outs key).bind Json.text? = (Assoc.get? members key).bind Json.text? := by
  cases hasMember : Assoc.get? members key with
  | none => rw [(aligned.get?_eq_none_iff key).mpr hasMember]
  | some value =>
    obtain ⟨out, hasOut, related⟩ := aligned.exists_right hasMember
    rw [hasOut]
    exact texts value out related

/-- Members that keep their texts make a reference exactly if they did before. -/
theorem pointer?_eq_of_aligned {r : String → Json → Json → Prop}
    (aligned : Assoc.Aligned r members outs)
    (texts : ∀ value out, r referenceKey value out → out.text? = value.text?) :
    pointer? outs = pointer? members :=
  text?_get?_of_aligned aligned texts

theorem ExpandsMembers.pointer?_eq (h : ExpandsMembers defs path members outs) :
    pointer? outs = pointer? members :=
  pointer?_eq_of_aligned h.aligned fun _ _ expands ↦ expands.text?_eq

theorem ExpandsMembers.declaredType_eq (h : ExpandsMembers defs path members outs) :
    declaredType (.object outs) = declaredType (.object members) :=
  text?_get?_of_aligned h.aligned fun _ _ expands ↦ expands.text?_eq

/-- The members beside a pointer are no reference. -/
theorem pointer?_siblings (distinct : (Assoc.keys members).Nodup) :
    pointer? (siblings members) = none := by
  rw [pointer?, siblings, Assoc.get?_erase_self distinct, Option.bind_none]

/-- Definitions whose objects have distinct keys. -/
def Definitions.Distinct (defs : Definitions) : Prop :=
  ∀ name target, Assoc.get? defs name = some target → target.DistinctKeys

mutual

/-- Expansion keeps keys distinct. -/
theorem Expands.distinctKeys (known : defs.Distinct) {path : List String} {value out : Json} :
    Expands defs path value out → value.DistinctKeys → out.DistinctKeys
  | .inlined _ replaced expands, _ =>
    expands.distinctKeys known (known _ _ (referent_inlined replaced).1)
  | .dropped _ _ expands, distinct => by
    have left := distinct.erase referenceKey
    rw [Json.DistinctKeys] at left ⊢
    exact ⟨expands.aligned.keys_eq ▸ left.1, expands.distinctKeys known left.2⟩
  | .object _ expands, distinct => by
    rw [Json.DistinctKeys] at distinct ⊢
    exact ⟨expands.aligned.keys_eq ▸ distinct.1, expands.distinctKeys known distinct.2⟩
  | .array expands, distinct => by
    rw [Json.DistinctKeys] at distinct ⊢
    exact expands.distinctKeys known distinct
  | .leaf _ _, distinct => distinct

theorem ExpandsItems.distinctKeys (known : defs.Distinct) {path : List String}
    {items outs : List Json} :
    ExpandsItems defs path items outs → Json.DistinctKeysItems items → Json.DistinctKeysItems outs
  | .nil, distinct => distinct
  | .cons head tail, distinct =>
    ⟨head.distinctKeys known distinct.1, tail.distinctKeys known distinct.2⟩

theorem ExpandsMembers.distinctKeys (known : defs.Distinct) {path : List String}
    {members outs : Members} :
    ExpandsMembers defs path members outs → Json.DistinctKeysMembers members →
      Json.DistinctKeysMembers outs
  | .nil, distinct => distinct
  | .cons head tail, distinct =>
    ⟨head.distinctKeys known distinct.1, tail.distinctKeys known distinct.2⟩

end

end VerbForms.Schema
