import Mathlib.Data.List.Perm.Subperm
import Mathlib.Logic.Relation
import VerbForms.Proofs.Schema.Failure
import VerbForms.Proofs.Schema.Fails

/-!
# Nested expansions

Expanding a value calls for the expansion of others: of its parts, or of the definition that replaces
a reference, on a path that is longer by one name. A definition may be larger than the reference, so
the values alone do not get smaller; but each replacement opens a definition that was not open, and
between two of them the values are parts (`wellFounded_calls`). All nested expansions are calls: a
value comes to an end if all that it calls for does (`Ends.of_calls`), and so every value does.

The look-ahead from a reference opens names in the same way, so both are bounded by the number of
definitions that are not open (`Opens.length_le`).
-/

namespace VerbForms.Schema

variable {defs : Definitions} {path added : List String} {value out : Json} {members : Members}
variable {items : List Json} {key name pointer : String} {target : Json} {e : SchemaError}

/-- A moment of an expansion: the definitions that are open and the value to be expanded. -/
structure Moment where
  opened : List String
  value : Json

/-- Expanding a value calls for the expansion of another one. -/
inductive Calls (defs : Definitions) : Moment → Moment → Prop where
  | item {opened : List String} {items : List Json} {item : Json} (mem : item ∈ items) :
      Calls defs ⟨opened, .array items⟩ ⟨opened, item⟩
  | member {opened : List String} {members : Members} {key : String} {value : Json}
      (plain : pointer? members = none) (mem : (key, value) ∈ members) :
      Calls defs ⟨opened, .object members⟩ ⟨opened, value⟩
  | definition {opened : List String} {members : Members} {pointer name : String} {target : Json}
      (reference : pointer? members = some pointer)
      (replaced : referent defs opened pointer = .ok (.inlined name target)) :
      Calls defs ⟨opened, .object members⟩ ⟨opened ++ [name], target⟩
  | sibling {opened : List String} {members : Members} {pointer key : String} {value : Json}
      (reference : pointer? members = some pointer)
      (scalar : referent defs opened pointer = .ok .dropped) (mem : (key, value) ∈ siblings members) :
      Calls defs ⟨opened, .object members⟩ ⟨opened, value⟩

variable {moment next : Moment}

/-! ### No endless nesting -/

private theorem sizeOf_lt_of_mem (mem : (key, value) ∈ members) :
    sizeOf value < sizeOf (Json.object members) := by
  have smaller := List.sizeOf_lt_of_mem mem
  simp only [Prod.mk.sizeOf_spec, Json.object.sizeOf_spec] at smaller ⊢
  omega

/-- A call opens a definition, or it goes to a part and opens none. -/
theorem Calls.descends (calls : Calls defs moment next) :
    Prod.Lex (· < ·) (· < ·) (unopened defs next.opened, sizeOf next.value)
      (unopened defs moment.opened, sizeOf moment.value) := by
  cases calls with
  | item mem =>
    refine .right _ ?_
    have smaller := List.sizeOf_lt_of_mem mem
    simp only [Json.array.sizeOf_spec]
    omega
  | member _ mem => exact .right _ (sizeOf_lt_of_mem mem)
  | definition _ replaced =>
    obtain ⟨known, fresh⟩ := referent_inlined replaced
    exact .left _ _ (unopened_lt known fresh)
  | sibling _ _ mem =>
    exact .right _ (sizeOf_lt_of_mem ((Assoc.erase_sublist _ referenceKey).subset mem))

/-- No chain of nested expansions goes on for ever, whatever the definitions. -/
theorem wellFounded_calls (defs : Definitions) :
    WellFounded fun next moment ↦ Calls defs moment next :=
  Subrelation.wf Calls.descends
    (InvImage.wf (fun moment : Moment ↦ (unopened defs moment.opened, sizeOf moment.value))
      (Prod.lex Nat.lt_wfRel Nat.lt_wfRel).wf)

/-! ### Every expansion ends -/

/-- The expansion of a value ends: with a result, or on an error. -/
def Ends (defs : Definitions) (moment : Moment) : Prop :=
  (∃ out, Expands defs moment.opened moment.value out) ∨
    ∃ e, Fails defs e moment.opened moment.value

private theorem items_end (ends : ∀ item ∈ items, Ends defs ⟨path, item⟩) :
    (∃ outs, ExpandsItems defs path items outs) ∨ ∃ e, FailsItems defs e path items := by
  induction items with
  | nil => exact .inl ⟨[], .nil⟩
  | cons item rest ih =>
    obtain ⟨first, others⟩ := List.forall_mem_cons.mp ends
    rcases first with ⟨out, head⟩ | ⟨e, fails⟩
    · refine (ih others).imp ?_ ?_
      · rintro ⟨outs, tail⟩
        exact ⟨out :: outs, .cons head tail⟩
      · rintro ⟨e, fails⟩
        exact ⟨e, .tail head fails⟩
    · exact .inr ⟨e, .head fails⟩

private theorem members_end
    (ends : ∀ key value, (key, value) ∈ members → Ends defs ⟨path, value⟩) :
    (∃ outs, ExpandsMembers defs path members outs) ∨ ∃ e, FailsMembers defs e path members := by
  induction members with
  | nil => exact .inl ⟨[], .nil⟩
  | cons entry rest ih =>
    obtain ⟨key, value⟩ := entry
    rcases ends key value List.mem_cons_self with ⟨out, head⟩ | ⟨e, fails⟩
    · refine (ih fun other child mem ↦ ends other child (List.mem_cons_of_mem _ mem)).imp ?_ ?_
      · rintro ⟨outs, tail⟩
        exact ⟨(key, out) :: outs, .cons head tail⟩
      · rintro ⟨e, fails⟩
        exact ⟨e, .tail head fails⟩
    · exact .inr ⟨e, .head fails⟩

/-- The expansion of a value ends if all that it calls for ends: there are no other nested
expansions. -/
theorem Ends.of_calls (inner : ∀ next, Calls defs moment next → Ends defs next) :
    Ends defs moment := by
  obtain ⟨opened, value⟩ := moment
  cases value with
  | object members =>
    cases isReference : pointer? members with
    | none =>
      refine (members_end fun key value mem ↦ inner _ (.member isReference mem)).imp ?_ ?_
      · rintro ⟨outs, expands⟩
        exact ⟨_, .object isReference expands⟩
      · rintro ⟨e, fails⟩
        exact ⟨e, .object isReference fails⟩
    | some pointer =>
      cases decided : referent defs opened pointer with
      | error e => exact .inr ⟨e, .reference isReference decided⟩
      | ok becomes =>
        cases becomes with
        | inlined name target =>
          refine (inner _ (.definition isReference decided)).imp ?_ ?_
          · rintro ⟨out, expands⟩
            exact ⟨out, .inlined isReference decided expands⟩
          · rintro ⟨e, fails⟩
            exact ⟨e, .inlined isReference decided fails⟩
        | dropped =>
          refine (members_end fun key value mem ↦ inner _ (.sibling isReference decided mem)).imp ?_ ?_
          · rintro ⟨outs, expands⟩
            exact ⟨_, .dropped isReference decided expands⟩
          · rintro ⟨e, fails⟩
            exact ⟨e, .dropped isReference decided fails⟩
  | array items =>
    refine (items_end fun item mem ↦ inner _ (.item mem)).imp ?_ ?_
    · rintro ⟨outs, expands⟩
      exact ⟨_, .array expands⟩
    · rintro ⟨e, fails⟩
      exact ⟨e, .array fails⟩
  | _ => exact .inl ⟨_, .leaf nofun nofun⟩

theorem ends (defs : Definitions) (moment : Moment) : Ends defs moment :=
  (wellFounded_calls defs).induction moment fun _ inner ↦ .of_calls inner

/-! ### Where an expansion stops -/

/-- What an expanding value calls for expands too. -/
theorem Calls.exists_expands (calls : Calls defs moment next)
    (expands : Expands defs moment.opened moment.value out) :
    ∃ out, Expands defs next.opened next.value out := by
  cases calls with
  | item mem =>
    cases expands with
    | array itemsExpand => exact itemsExpand.exists_of_mem mem
    | leaf _ noArray => exact absurd rfl (noArray _)
  | member plain mem =>
    obtain ⟨outs, membersExpand, _⟩ := (expands_plain_iff plain).mp expands
    exact membersExpand.exists_of_mem mem
  | definition reference replaced =>
    exact ⟨out, (expands_inlined_iff reference replaced).mp expands⟩
  | sibling reference scalar mem =>
    obtain ⟨outs, siblingsExpand, _⟩ := (expands_dropped_iff reference scalar).mp expands
    exact siblingsExpand.exists_of_mem mem

/-- One of the nested expansions stops at a reference of which it is not decided what becomes. -/
def Stops (defs : Definitions) (e : SchemaError) (start : Moment) : Prop :=
  ∃ moment pointer, Relation.ReflTransGen (Calls defs) start moment ∧
    reference? moment.value = some pointer ∧ referent defs moment.opened pointer = .error e

theorem Stops.of_call (calls : Calls defs moment next) : Stops defs e next → Stops defs e moment
  | ⟨last, pointer, run, stopped⟩ => ⟨last, pointer, .head calls run, stopped⟩

mutual

/-- An expansion that fails stops at a reference. -/
theorem Fails.stops {path : List String} {value : Json} :
    Fails defs e path value → Stops defs e ⟨path, value⟩
  | .reference reference failed => ⟨_, _, .refl, reference, failed⟩
  | .inlined reference replaced fails => fails.stops.of_call (.definition reference replaced)
  | .dropped reference scalar fails =>
    have ⟨_, _, mem, stops⟩ := fails.stops
    stops.of_call (.sibling reference scalar mem)
  | .object plain fails =>
    have ⟨_, _, mem, stops⟩ := fails.stops
    stops.of_call (.member plain mem)
  | .array fails =>
    have ⟨_, mem, stops⟩ := fails.stops
    stops.of_call (.item mem)

theorem FailsItems.stops {path : List String} {items : List Json} :
    FailsItems defs e path items → ∃ item ∈ items, Stops defs e ⟨path, item⟩
  | .head fails => ⟨_, List.mem_cons_self, fails.stops⟩
  | .tail _ fails =>
    have ⟨item, mem, stops⟩ := fails.stops
    ⟨item, List.mem_cons_of_mem _ mem, stops⟩

theorem FailsMembers.stops {path : List String} {members : Members} :
    FailsMembers defs e path members →
      ∃ key value, (key, value) ∈ members ∧ Stops defs e ⟨path, value⟩
  | .head fails => ⟨_, _, List.mem_cons_self, fails.stops⟩
  | .tail _ fails =>
    have ⟨key, value, mem, stops⟩ := fails.stops
    ⟨key, value, List.mem_cons_of_mem _ mem, stops⟩

end

/-! ### Open names -/

/-- Names that are opened on a path: of known definitions, each once and none that is open. -/
structure Opens (defs : Definitions) (path added : List String) : Prop where
  nodup : added.Nodup
  fresh : ∀ name ∈ added, name ∉ path
  known : ∀ name ∈ added, ∃ target, Assoc.get? defs name = some target

theorem Opens.nil (path : List String) : Opens defs path [] := ⟨List.nodup_nil, nofun, nofun⟩

/-- One more known name that is not open yet. -/
theorem Opens.snoc (opens : Opens defs path added) (known : Assoc.get? defs name = some target)
    (fresh : name ∉ path ++ added) : Opens defs path (added ++ [name]) := by
  obtain ⟨notBefore, notAdded⟩ := not_or.mp (List.mem_append.not.mp fresh)
  constructor
  · rw [← List.concat_eq_append]
    exact opens.nodup.concat notAdded
  · intro other mem
    rcases List.mem_append.mp mem with old | new
    · exact opens.fresh other old
    · exact List.mem_singleton.mp new ▸ notBefore
  · intro other mem
    rcases List.mem_append.mp mem with old | new
    · exact opens.known other old
    · exact ⟨target, List.mem_singleton.mp new ▸ known⟩

theorem Opens.nodup_append (opens : Opens defs path added) (distinct : path.Nodup) :
    (path ++ added).Nodup := by
  refine List.nodup_append.mpr ⟨distinct, opens.nodup, ?_⟩
  rintro name before _ mem rfl
  exact opens.fresh name mem before

/-- No more names are opened than definitions are not open. -/
theorem Opens.length_le (opens : Opens defs path added) : added.length ≤ unopened defs path := by
  have inside : added ⊆ Assoc.keys (defs.filter fun entry ↦ decide (entry.1 ∉ path)) := by
    intro name mem
    obtain ⟨target, known⟩ := opens.known name mem
    have closed := decide_eq_true (opens.fresh name mem)
    exact List.mem_map.mpr ⟨(name, target), List.mem_filter.mpr ⟨mem_of_get? known, closed⟩, rfl⟩
  have bound := (List.subperm_of_subset opens.nodup inside).length_le
  rwa [Assoc.keys, List.length_map, ← List.countP_eq_length_filter] at bound

/-- A call opens one definition or none. -/
theorem Calls.opens (calls : Calls defs moment next) (opens : Opens defs path added)
    (before : moment.opened = path ++ added) :
    ∃ more, next.opened = path ++ more ∧ Opens defs path more := by
  cases calls with
  | item _ => exact ⟨added, before, opens⟩
  | member _ _ => exact ⟨added, before, opens⟩
  | @definition opened _ _ name _ _ replaced =>
    obtain rfl : opened = path ++ added := before
    obtain ⟨known, fresh⟩ := referent_inlined replaced
    exact ⟨added ++ [name], List.append_assoc _ _ _, opens.snoc known fresh⟩
  | sibling _ _ _ => exact ⟨added, before, opens⟩

/-- Nested expansions have opened known definitions behind the path that they began on. -/
theorem exists_opens_of_calls {start : Moment} (run : Relation.ReflTransGen (Calls defs) start moment) :
    ∃ added, moment.opened = start.opened ++ added ∧ Opens defs start.opened added := by
  induction run with
  | refl => exact ⟨[], (List.append_nil _).symm, .nil _⟩
  | tail _ calls ih =>
    obtain ⟨added, before, opens⟩ := ih
    exact calls.opens opens before

/-! ### The look-ahead -/

/-- The look-ahead from a reference comes to a definition; the trail ends with the names that it has
passed. -/
inductive LooksAhead (defs : Definitions) (path : List String) (pointer : String) :
    List String → Json → Prop where
  | first {name : String} {target : Json} (names : Names pointer name)
      (known : Assoc.get? defs name = some target) (fresh : name ∉ path) :
      LooksAhead defs path pointer (path ++ [name]) target
  | further {trail : List String} {target next : Json} {link name : String}
      (before : LooksAhead defs path pointer trail target) (untyped : declaredType target = none)
      (isAlias : reference? target = some link) (names : Names link name)
      (known : Assoc.get? defs name = some next) (fresh : name ∉ trail) :
      LooksAhead defs path pointer (trail ++ [name]) next

/-- The look-ahead passes known definitions that are not open, each at most once. -/
theorem LooksAhead.exists_opens {trail : List String} (ahead : LooksAhead defs path pointer trail target) :
    ∃ passed, trail = path ++ passed ∧ Opens defs path passed := by
  induction ahead with
  | @first name _ _ known fresh =>
    have opens := (Opens.nil path).snoc known (by rwa [List.append_nil])
    exact ⟨[name], rfl, opens⟩
  | @further trail _ _ _ name _ _ _ _ known fresh ih =>
    obtain ⟨passed, rfl, opens⟩ := ih
    exact ⟨passed ++ [name], List.append_assoc _ _ _, opens.snoc known fresh⟩

/-- The look-ahead goes no further than to this definition. -/
def IsLast (defs : Definitions) (trail : List String) (target : Json) : Prop :=
  ∀ link name next, declaredType target = none → reference? target = some link → Names link name →
    Assoc.get? defs name = some next → name ∈ trail

/-- The look-ahead comes to a last definition, and what is found there is what is found. -/
theorem LooksAhead.exists_last {trail : List String} {target : Json}
    (ahead : LooksAhead defs path pointer trail target) :
    ∃ lastTrail last, LooksAhead defs path pointer lastTrail last ∧ IsLast defs lastTrail last ∧
      aliasType defs trail target = aliasType defs lastTrail last := by
  by_cases isLast : IsLast defs trail target
  · exact ⟨trail, target, ahead, isLast, rfl⟩
  · simp only [IsLast, not_forall] at isLast
    obtain ⟨link, name, next, untyped, isAlias, names, known, fresh⟩ := isLast
    have named := definitionName_eq_ok_iff.mpr names
    rw [aliasType_of_reference untyped isAlias named known fresh]
    exact (ahead.further untyped isAlias names known fresh).exists_last
termination_by unopened defs trail
decreasing_by exact unopened_lt known fresh

end VerbForms.Schema
