import VerbForms.Json.Value
import VerbForms.Proofs.Assoc

/-!
# Positions in values

A position leads from a value down to a part of it, through members of objects and items of arrays.
-/

namespace VerbForms.Json

/-- One step down into a value. -/
inductive Step where
  | member (key : String)
  | item (index : Nat)
  deriving DecidableEq, Repr

/-- Steps from a value down to one of its parts. -/
abbrev Position := List Step

/-- The part of a value one step down. -/
def child? : Json → Step → Option Json
  | .object members, .member key => Assoc.get? members key
  | .array items, .item index => items[index]?
  | _, _ => none

/-- The part of a value at a position. -/
def at? (value : Json) : Position → Option Json
  | [] => some value
  | step :: rest => (value.child? step).bind fun child ↦ child.at? rest

variable {value child : Json} {step : Step} {position : Position}

theorem at?_cons (value : Json) (step : Step) (position : Position) :
    value.at? (step :: position) = (value.child? step).bind (·.at? position) := rfl

/-- A position below a child is a position below its parent. -/
theorem at?_cons_of_child? (h : value.child? step = some child) (position : Position) :
    value.at? (step :: position) = child.at? position := by
  rw [at?_cons, h, Option.bind_some]

/-- What stands below a value stands at or below one of its children. -/
theorem exists_child?_of_at?_cons {part : Json} (h : value.at? (step :: position) = some part) :
    ∃ child, value.child? step = some child ∧ child.at? position = some part :=
  Option.bind_eq_some_iff.mp h

/-! ### Distinct keys below a value -/

theorem distinctKeysMembers_iff (members : Members) :
    DistinctKeysMembers members ↔ ∀ entry ∈ members, entry.2.DistinctKeys := by
  induction members with
  | nil => simp [DistinctKeysMembers]
  | cons head rest ih => rw [DistinctKeysMembers, ih, List.forall_mem_cons]

theorem distinctKeysItems_iff (items : List Json) :
    DistinctKeysItems items ↔ ∀ item ∈ items, item.DistinctKeys := by
  induction items with
  | nil => simp [DistinctKeysItems]
  | cons head rest ih => rw [DistinctKeysItems, ih, List.forall_mem_cons]

theorem distinctKeys_array {items : List Json} :
    (array items).DistinctKeys ↔ ∀ item ∈ items, item.DistinctKeys := by
  rw [DistinctKeys, distinctKeysItems_iff]

theorem distinctKeys_object {members : Members} :
    (object members).DistinctKeys ↔
      (Assoc.keys members).Nodup ∧ ∀ entry ∈ members, entry.2.DistinctKeys := by
  rw [DistinctKeys, distinctKeysMembers_iff]

theorem DistinctKeys.member {members : Members} {key : String}
    (distinct : (object members).DistinctKeys) (h : Assoc.get? members key = some child) :
    child.DistinctKeys :=
  (distinctKeys_object.mp distinct).2 _ (Assoc.mem_of_get?_eq_some h)

theorem DistinctKeys.child? (distinct : value.DistinctKeys) (h : value.child? step = some child) :
    child.DistinctKeys := by
  cases value with
  | object members =>
    cases step with
    | member key => exact distinct.member h
    | item _ => cases h
  | array items =>
    cases step with
    | member _ => cases h
    | item index => exact distinctKeys_array.mp distinct child (List.mem_of_getElem? h)
  | _ => cases h

/-- Objects anywhere below a value with distinct keys have distinct keys. -/
theorem DistinctKeys.at? {part : Json} (distinct : value.DistinctKeys)
    (h : value.at? position = some part) : part.DistinctKeys := by
  induction position generalizing value with
  | nil => exact Option.some.inj h ▸ distinct
  | cons step rest ih =>
    obtain ⟨child, isChild, below⟩ := exists_child?_of_at?_cons h
    exact ih (distinct.child? isChild) below

/-- Where corresponding values keep distinct keys, whole objects do. -/
theorem distinctKeys_of_aligned {r : String → Json → Json → Prop} {members outs : Members}
    (aligned : Assoc.Aligned r members outs) (distinct : (object members).DistinctKeys)
    (kept : ∀ key value out, r key value out → value.DistinctKeys → out.DistinctKeys) :
    (object outs).DistinctKeys := by
  have keys : (Assoc.keys outs).Nodup :=
    aligned.keys_eq ▸ (distinctKeys_object.mp distinct).1
  refine distinctKeys_object.mpr ⟨keys, fun entry isEntry ↦ ?_⟩
  obtain ⟨value, hasMember, related⟩ :=
    aligned.exists_left (Assoc.get?_eq_some_of_mem keys isEntry)
  exact kept entry.1 value entry.2 related (distinct.member hasMember)

/-- Removing a member keeps keys distinct. -/
theorem DistinctKeys.erase {members : Members} (distinct : (object members).DistinctKeys)
    (key : String) : (object (Assoc.erase members key)).DistinctKeys := by
  obtain ⟨hk, hv⟩ := distinctKeys_object.mp distinct
  refine distinctKeys_object.mpr ⟨hk.sublist (Assoc.keys_erase_sublist members key), ?_⟩
  exact fun entry he ↦ hv entry ((Assoc.erase_sublist members key).subset he)

end VerbForms.Json
