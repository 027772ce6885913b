import VerbForms.Proofs.Json.Position

/-!
# Values up to the order of members

Two values are equal up to the order of members if one arises from the other by reordering the
members of objects, at any depth. The main lemma is about whatever treats members one by one: on a
reordered object it does the same, up to the order of members (`Reordered.exists_aligned`).
-/

namespace VerbForms.Json

open Assoc (Aligned)

mutual

/-- Equal up to the order of object members, at every depth. -/
inductive Reordered : Json → Json → Prop where
  | leaf {value : Json} (noObject : ∀ members, value ≠ .object members)
      (noArray : ∀ items, value ≠ .array items) : Reordered value value
  | array {items others : List Json} (related : ReorderedItems items others) :
      Reordered (.array items) (.array others)
  | object {members between others : Members} (related : ReorderedMembers members between)
      (moved : between.Perm others) : Reordered (.object members) (.object others)

/-- Items that are equal in this sense one by one. -/
inductive ReorderedItems : List Json → List Json → Prop where
  | nil : ReorderedItems [] []
  | cons {item other : Json} {rest others : List Json} (head : Reordered item other)
      (tail : ReorderedItems rest others) : ReorderedItems (item :: rest) (other :: others)

/-- Members under the same keys, with values that are equal in this sense one by one. -/
inductive ReorderedMembers : Members → Members → Prop where
  | nil : ReorderedMembers [] []
  | cons {key : String} {value other : Json} {rest others : Members} (head : Reordered value other)
      (tail : ReorderedMembers rest others) :
      ReorderedMembers ((key, value) :: rest) ((key, other) :: others)

end

variable {value other : Json} {members others between outs : Members} {key : String}

theorem reorderedMembers_iff :
    ReorderedMembers members others ↔ Aligned (fun _ ↦ Reordered) members others := by
  constructor
  · intro related
    induction members generalizing others with
    | nil =>
      cases related
      exact .nil
    | cons head rest ih =>
      cases related with
      | cons same tail => exact .cons same (ih tail)
  · intro aligned
    induction aligned with
    | nil => exact .nil
    | cons same _ ih => exact .cons same ih

theorem reordered_object_iff :
    Reordered (.object members) (.object others) ↔
      ∃ between, Aligned (fun _ ↦ Reordered) members between ∧ between.Perm others := by
  constructor
  · intro same
    cases same with
    | leaf noObject _ => exact absurd rfl (noObject members)
    | object related moved => exact ⟨_, reorderedMembers_iff.mp related, moved⟩
  · rintro ⟨between, related, moved⟩
    exact .object (reorderedMembers_iff.mpr related) moved

/-! ### Symmetry and distinct keys -/

mutual

theorem Reordered.refl : (value : Json) → Reordered value value
  | .object members => .object (ReorderedMembers.refl members) (.refl members)
  | .array items => .array (ReorderedItems.refl items)
  | .null => .leaf nofun nofun
  | .bool _ => .leaf nofun nofun
  | .int _ => .leaf nofun nofun
  | .real _ => .leaf nofun nofun
  | .text _ => .leaf nofun nofun

theorem ReorderedItems.refl : (items : List Json) → ReorderedItems items items
  | [] => .nil
  | item :: rest => .cons (Reordered.refl item) (ReorderedItems.refl rest)

theorem ReorderedMembers.refl : (members : Members) → ReorderedMembers members members
  | [] => .nil
  | (_, value) :: rest => .cons (Reordered.refl value) (ReorderedMembers.refl rest)

end

mutual

theorem Reordered.symm {value other : Json} : Reordered value other → Reordered other value
  | .leaf noObject noArray => .leaf noObject noArray
  | .array related => .array related.symm
  | .object related moved => by
    -- The values are related the other way round, then both sides are moved.
    obtain ⟨back, moved', related'⟩ := (reorderedMembers_iff.mp related.symm).exists_perm moved
    exact .object (reorderedMembers_iff.mpr related') moved'.symm

theorem ReorderedItems.symm {items others : List Json} :
    ReorderedItems items others → ReorderedItems others items
  | .nil => .nil
  | .cons head tail => .cons head.symm tail.symm

theorem ReorderedMembers.symm {members others : Members} :
    ReorderedMembers members others → ReorderedMembers others members
  | .nil => .nil
  | .cons head tail => .cons head.symm tail.symm

end

mutual

theorem Reordered.distinctKeys {value other : Json} :
    Reordered value other → value.DistinctKeys → other.DistinctKeys
  | .leaf _ _, distinct => distinct
  | .array related, distinct => by
    rw [DistinctKeys] at distinct ⊢
    exact related.distinctKeys distinct
  | .object related moved, distinct => by
    rw [DistinctKeys] at distinct ⊢
    have values := (distinctKeysMembers_iff _).mp (related.distinctKeys distinct.2)
    have keys := distinct.1
    rw [← (reorderedMembers_iff.mp related).keys_eq] at keys
    refine ⟨(moved.map Prod.fst).nodup_iff.mp keys, ?_⟩
    exact (distinctKeysMembers_iff _).mpr fun entry mem ↦ values entry (moved.mem_iff.mpr mem)

theorem ReorderedItems.distinctKeys {items others : List Json} :
    ReorderedItems items others → DistinctKeysItems items → DistinctKeysItems others
  | .nil, distinct => distinct
  | .cons head tail, distinct => ⟨head.distinctKeys distinct.1, tail.distinctKeys distinct.2⟩

theorem ReorderedMembers.distinctKeys {members others : Members} :
    ReorderedMembers members others → DistinctKeysMembers members → DistinctKeysMembers others
  | .nil, distinct => distinct
  | .cons head tail, distinct => ⟨head.distinctKeys distinct.1, tail.distinctKeys distinct.2⟩

end

/-! ### Reordered values are read alike -/

theorem Reordered.text?_eq (same : Reordered value other) : other.text? = value.text? := by
  cases same <;> rfl

theorem Reordered.isSome_members? (same : Reordered value other) :
    other.members?.isSome = value.members?.isSome := by
  cases same <;> rfl

theorem Reordered.exists_object (same : Reordered (.object members) other) :
    ∃ others, other = .object others := by
  cases same with
  | leaf noObject _ => exact absurd rfl (noObject members)
  | object => exact ⟨_, rfl⟩

theorem Reordered.rel_get? (same : Reordered (.object members) (.object others))
    (distinct : (Assoc.keys members).Nodup) (key : String) :
    Option.Rel Reordered (Assoc.get? members key) (Assoc.get? others key) := by
  obtain ⟨between, related, moved⟩ := reordered_object_iff.mp same
  rw [← related.keys_eq] at distinct
  rw [← Assoc.get?_eq_of_perm distinct moved]
  exact related.rel_get? key

/-- What treats the members of an object one by one treats those of a reordered one alike. -/
theorem Reordered.exists_aligned {r r' : String → Json → Json → Prop}
    (same : Reordered (.object members) (.object others)) (h : Aligned r members outs)
    (step : ∀ key value out value', (key, value) ∈ members → r key value out →
      Reordered value value' → ∃ out', r' key value' out' ∧ Reordered out out') :
    ∃ outs', Aligned r' others outs' ∧ Reordered (.object outs) (.object outs') := by
  obtain ⟨between, related, moved⟩ := reordered_object_iff.mp same
  -- First value by value, in the same order.
  have inOrder : ∃ betweenOuts, Aligned r' between betweenOuts ∧
      Aligned (fun _ ↦ Reordered) outs betweenOuts := by
    clear same moved
    induction h generalizing between with
    | nil =>
      cases related
      exact ⟨[], .nil, .nil⟩
    | cons head tail ih =>
      cases related with
      | cons same rest =>
        obtain ⟨out', treated, sameOut⟩ := step _ _ _ _ List.mem_cons_self head same
        obtain ⟨outs', treatedRest, sameRest⟩ :=
          ih (fun key value out value' mem ↦ step key value out value' (List.mem_cons_of_mem _ mem))
            _ rest
        exact ⟨_, .cons treated treatedRest, .cons sameOut sameRest⟩
  -- Then the order is changed.
  obtain ⟨betweenOuts, treated, relatedOuts⟩ := inOrder
  obtain ⟨outs', movedOuts, treated'⟩ := treated.exists_perm moved
  exact ⟨outs', treated', reordered_object_iff.mpr ⟨betweenOuts, relatedOuts, movedOuts⟩⟩

/-- Removing a key keeps objects equal up to order. -/
theorem Reordered.erase (same : Reordered (.object members) (.object others))
    (distinct : (Assoc.keys members).Nodup) (key : String) :
    Reordered (.object (Assoc.erase members key)) (.object (Assoc.erase others key)) := by
  obtain ⟨between, related, moved⟩ := reordered_object_iff.mp same
  rw [← related.keys_eq] at distinct
  exact reordered_object_iff.mpr ⟨_, related.erase key, Assoc.perm_erase distinct moved key⟩

/-- Writing a reordered object into another one keeps the results equal up to order. -/
theorem Reordered.putAll {added addedOthers : Members}
    (related : Aligned (fun _ ↦ Reordered) members others) (distinct : (Assoc.keys members).Nodup)
    (same : Reordered (.object added) (.object addedOthers))
    (distinctAdded : (Assoc.keys added).Nodup) :
    Reordered (.object (Assoc.putAll members added))
      (.object (Assoc.putAll others addedOthers)) := by
  obtain ⟨between, relatedAdded, moved⟩ := reordered_object_iff.mp same
  refine reordered_object_iff.mpr ⟨_, related.putAll relatedAdded, ?_⟩
  rw [← related.keys_eq] at distinct
  rw [← relatedAdded.keys_eq] at distinctAdded
  exact Assoc.perm_putAll distinct distinctAdded moved

end VerbForms.Json
