import VerbForms.Assoc
import Mathlib.Data.List.Basic
import Mathlib.Data.List.Nodup

/-!
# Association lists: removal, concatenation and merging

What a later look-up gives after a key has been removed, where two lists stand one after the other
and where one list has been written into another, and which keys are left. Lists that correspond key
by key (`Aligned`) have corresponding look-ups.
-/

namespace VerbForms.Assoc

variable {κ α β : Type} [DecidableEq κ]

/-- A key without a value is no key. -/
theorem get?_eq_none_iff (entries : List (κ × α)) (key : κ) :
    get? entries key = none ↔ key ∉ keys entries := by
  rw [mem_keys_iff, Option.not_isSome_iff_eq_none]

/-- What a look-up finds is an entry. -/
theorem mem_of_get?_eq_some {entries : List (κ × α)} {key : κ} {value : α}
    (h : get? entries key = some value) : (key, value) ∈ entries := by
  induction entries with
  | nil => simp at h
  | cons head rest ih =>
    rw [get?] at h
    split at h
    · next hk =>
      rw [← hk, ← Option.some.inj h]
      exact List.mem_cons_self
    · exact List.mem_cons_of_mem _ (ih h)

/-- Where keys are distinct, every entry is found. -/
theorem get?_eq_some_of_mem {entries : List (κ × α)} {key : κ} {value : α}
    (distinct : (keys entries).Nodup) (h : (key, value) ∈ entries) :
    get? entries key = some value := by
  induction entries with
  | nil => simp at h
  | cons head rest ih =>
    have hd := List.nodup_cons.mp distinct
    rw [get?]
    rcases List.mem_cons.mp h with he | hm
    · rw [← he, if_pos rfl]
    · have hne : head.1 ≠ key := fun he ↦ hd.1 (he ▸ List.mem_map_of_mem (f := Prod.fst) hm)
      rw [if_neg hne]
      exact ih hd.2 hm

theorem erase_sublist (entries : List (κ × α)) (key : κ) :
    (erase entries key).Sublist entries := by
  induction entries with
  | nil => exact List.Sublist.slnil
  | cons head rest ih =>
    rw [erase]
    split
    · exact List.sublist_cons_self _ _
    · exact ih.cons_cons _

theorem keys_erase_sublist (entries : List (κ × α)) (key : κ) :
    (keys (erase entries key)).Sublist (keys entries) :=
  (erase_sublist entries key).map Prod.fst

/-- Where keys are distinct, a removed key is gone. -/
theorem get?_erase_self {entries : List (κ × α)} (distinct : (keys entries).Nodup) (key : κ) :
    get? (erase entries key) key = none := by
  induction entries with
  | nil => rfl
  | cons head rest ih =>
    have hd := List.nodup_cons.mp distinct
    rw [erase]
    split
    · next hk =>
      rw [get?_eq_none_iff, ← hk]
      exact hd.1
    · next hk =>
      rw [get?, if_neg hk]
      exact ih hd.2

/-- Where keys are distinct, what is left are the entries of the other keys. -/
theorem erase_eq_filter {entries : List (κ × α)} (distinct : (keys entries).Nodup) (key : κ) :
    erase entries key = entries.filter (·.1 ≠ key) := by
  induction entries with
  | nil => rfl
  | cons head rest ih =>
    have hd := List.nodup_cons.mp distinct
    rw [erase]
    split
    · next hk =>
      have others : ∀ entry ∈ rest, decide (entry.1 ≠ key) = true := by
        intro entry mem
        refine decide_eq_true fun same ↦ hd.1 ?_
        rw [hk, ← same]
        exact List.mem_map_of_mem mem
      rw [List.filter_cons_of_neg (by simpa using hk), List.filter_eq_self.mpr others]
    · next hk => rw [List.filter_cons_of_pos (by simpa using hk), ih hd.2]

/-- The values of a list are the value under a key, if there is one, and the values that its removal
leaves. -/
theorem perm_values_erase (entries : List (κ × α)) (key : κ) :
    (entries.map Prod.snd).Perm
      ((get? entries key).toList ++ (erase entries key).map Prod.snd) := by
  induction entries with
  | nil => exact List.Perm.refl []
  | cons head rest ih =>
    by_cases hk : head.1 = key
    · rw [get?, erase, if_pos hk, if_pos hk]
      exact List.Perm.refl _
    · rw [get?, erase, if_neg hk, if_neg hk, List.map_cons, List.map_cons]
      exact (ih.cons head.2).trans List.perm_middle.symm

/-- The first of two lists that has the key decides. -/
theorem get?_append (first second : List (κ × α)) (key : κ) :
    get? (first ++ second) key = (get? first key).or (get? second key) := by
  induction first with
  | nil => rfl
  | cons head rest ih =>
    rw [List.cons_append, get?, get?, ih]
    split <;> rfl

/-- A new key is added at the end. -/
theorem put_of_not_mem {entries : List (κ × α)} {key : κ} (fresh : key ∉ keys entries)
    (value : α) : put entries key value = entries ++ [(key, value)] := by
  induction entries with
  | nil => rfl
  | cons head rest ih =>
    simp only [keys, List.map_cons, List.mem_cons, not_or] at fresh
    rw [put, if_neg fun same ↦ fresh.1 same.symm, ih fresh.2, List.cons_append]

/-- Where keys are distinct, writing to a key that is present changes its value only. -/
theorem put_of_mem {entries : List (κ × α)} {key : κ} (distinct : (keys entries).Nodup)
    (known : key ∈ keys entries) (value : α) :
    put entries key value = entries.map fun entry ↦ if entry.1 = key then (entry.1, value) else entry := by
  induction entries with
  | nil => cases known
  | cons head rest ih =>
    have hd := List.nodup_cons.mp distinct
    rw [put, List.map_cons]
    by_cases same : head.1 = key
    · rw [if_pos same, if_pos same]
      -- The key does not come again, so the rest stays as it is.
      have others : ∀ entry ∈ rest, (if entry.1 = key then (entry.1, value) else entry) = entry := by
        intro entry mem
        refine if_neg fun again ↦ hd.1 ?_
        rw [same, ← again]
        exact List.mem_map_of_mem mem
      rw [List.map_congr_left others, List.map_id']
    · rw [if_neg same, if_neg same]
      have later : key ∈ keys rest := by
        rcases List.mem_cons.mp known with here | later
        · exact absurd here.symm same
        · exact later
      rw [ih hd.2 later]

/-- Lists with the same entries are written alike. -/
theorem perm_put {entries others : List (κ × α)} (distinct : (keys entries).Nodup)
    (same : entries.Perm others) (key : κ) (value : α) :
    (put entries key value).Perm (put others key value) := by
  have sameKeys : (keys entries).Perm (keys others) := same.map Prod.fst
  by_cases known : key ∈ keys entries
  · rw [put_of_mem distinct known,
      put_of_mem (sameKeys.nodup_iff.mp distinct) (sameKeys.mem_iff.mp known)]
    exact same.map _
  · rw [put_of_not_mem known, put_of_not_mem fun mem ↦ known (sameKeys.mem_iff.mpr mem)]
    exact same.append_right _

/-- Lists with the same entries are read alike. -/
theorem get?_eq_of_perm {entries others : List (κ × α)} (distinct : (keys entries).Nodup)
    (same : entries.Perm others) (key : κ) : get? entries key = get? others key := by
  have sameKeys : (keys entries).Perm (keys others) := same.map Prod.fst
  cases found : get? entries key with
  | none =>
    rw [get?_eq_none_iff] at found
    exact ((get?_eq_none_iff others key).mpr fun mem ↦ found (sameKeys.mem_iff.mpr mem)).symm
  | some value =>
    have mem := same.mem_iff.mp (mem_of_get?_eq_some found)
    exact (get?_eq_some_of_mem (sameKeys.nodup_iff.mp distinct) mem).symm

/-- Writing keeps keys distinct. -/
theorem nodup_keys_put {entries : List (κ × α)} (distinct : (keys entries).Nodup) (key : κ)
    (value : α) : (keys (put entries key value)).Nodup := by
  rw [keys_put]
  split
  · exact distinct
  · next fresh =>
    rw [List.nodup_append]
    refine ⟨distinct, List.nodup_singleton key, fun k hk other ho same ↦ ?_⟩
    rw [List.mem_singleton] at ho
    exact fresh (ho ▸ same ▸ hk)

theorem mem_put {entries : List (κ × α)} {key : κ} {value : α} {entry : κ × α}
    (h : entry ∈ put entries key value) : entry = (key, value) ∨ entry ∈ entries := by
  induction entries with
  | nil => exact .inl (List.mem_singleton.mp h)
  | cons head rest ih =>
    rw [put] at h
    split at h
    · next same =>
      rcases List.mem_cons.mp h with he | hm
      · exact .inl (same ▸ he)
      · exact .inr (List.mem_cons_of_mem head hm)
    · rcases List.mem_cons.mp h with he | hm
      · exact .inr (he ▸ List.mem_cons_self)
      · exact (ih hm).imp_right (List.mem_cons_of_mem head)

theorem nodup_keys_putAll {entries : List (κ × α)} (distinct : (keys entries).Nodup)
    (added : List (κ × α)) : (keys (putAll entries added)).Nodup := by
  induction added generalizing entries with
  | nil => exact distinct
  | cons head rest ih => exact ih (nodup_keys_put distinct head.1 head.2)

theorem mem_putAll {entries added : List (κ × α)} {entry : κ × α}
    (h : entry ∈ putAll entries added) : entry ∈ entries ∨ entry ∈ added := by
  induction added generalizing entries with
  | nil => exact .inl h
  | cons head rest ih =>
    rcases ih h with earlier | later
    · rcases mem_put earlier with he | hm
      · exact .inr (he ▸ List.mem_cons_self)
      · exact .inl hm
    · exact .inr (List.mem_cons_of_mem head later)

/-- Where the keys of the written list are distinct, it decides about its keys. -/
theorem get?_putAll (entries : List (κ × α)) {added : List (κ × α)}
    (distinct : (keys added).Nodup) (key : κ) :
    get? (putAll entries added) key = (get? added key).or (get? entries key) := by
  induction added generalizing entries with
  | nil => rfl
  | cons head rest ih =>
    have hd := List.nodup_cons.mp distinct
    have hs := ih (put entries head.1 head.2) hd.2
    rw [putAll, List.foldl_cons]
    rw [putAll] at hs
    rw [hs, get?]
    by_cases hk : head.1 = key
    · have hn : get? rest key = none := (get?_eq_none_iff rest key).mpr (hk ▸ hd.1)
      rw [if_pos hk, hn, ← hk, get?_put_self]
      rfl
    · rw [if_neg hk, get?_put_of_ne hk]

/-! ### Lists side by side -/

/-- Two lists with the same keys in the same order, whose values are related key by key. -/
inductive Aligned (r : κ → α → β → Prop) : List (κ × α) → List (κ × β) → Prop where
  | nil : Aligned r [] []
  | cons {key : κ} {a : α} {b : β} {rest : List (κ × α)} {outs : List (κ × β)}
      (head : r key a b) (tail : Aligned r rest outs) :
      Aligned r ((key, a) :: rest) ((key, b) :: outs)

variable {r : κ → α → β → Prop} {entries : List (κ × α)} {outs : List (κ × β)} {key : κ}

omit [DecidableEq κ] in
theorem Aligned.keys_eq (h : Aligned r entries outs) : keys outs = keys entries := by
  induction h with
  | nil => rfl
  | cons _ _ ih => exact congrArg (List.cons _) ih

omit [DecidableEq κ] in
/-- A relation that follows for each entry holds of all of them. -/
theorem Aligned.imp {s : κ → α → β → Prop} (h : Aligned r entries outs)
    (follows : ∀ key a b, (key, a) ∈ entries → r key a b → s key a b) : Aligned s entries outs := by
  induction h with
  | nil => exact .nil
  | cons head _ ih =>
    refine .cons (follows _ _ _ List.mem_cons_self head) (ih fun key a b mem ↦ ?_)
    exact follows key a b (List.mem_cons_of_mem _ mem)

omit [DecidableEq κ] in
/-- What stands on the left corresponds to something on the right. -/
theorem Aligned.exists_of_mem (h : Aligned r entries outs) {a : α} (mem : (key, a) ∈ entries) :
    ∃ b, r key a b := by
  induction h with
  | nil => cases mem
  | cons head _ ih =>
    rcases List.mem_cons.mp mem with same | later
    · obtain ⟨rfl, rfl⟩ := Prod.mk.inj same
      exact ⟨_, head⟩
    · exact ih later

/-- What is found on the left corresponds to something that is found on the right. -/
theorem Aligned.exists_right (h : Aligned r entries outs) {a : α}
    (found : get? entries key = some a) : ∃ b, get? outs key = some b ∧ r key a b := by
  induction h with
  | nil => cases found
  | cons head _ ih =>
    rw [get?] at found ⊢
    split at found
    · next same =>
      cases found
      exact ⟨_, if_pos same, same ▸ head⟩
    · next different =>
      rw [if_neg different]
      exact ih found

/-- What is found on the right corresponds to something that is found on the left. -/
theorem Aligned.exists_left (h : Aligned r entries outs) {b : β}
    (found : get? outs key = some b) : ∃ a, get? entries key = some a ∧ r key a b := by
  induction h with
  | nil => cases found
  | cons head _ ih =>
    rw [get?] at found ⊢
    split at found
    · next same =>
      cases found
      exact ⟨_, if_pos same, same ▸ head⟩
    · next different =>
      rw [if_neg different]
      exact ih found

theorem Aligned.get?_eq_none_iff (h : Aligned r entries outs) (key : κ) :
    get? outs key = none ↔ get? entries key = none := by
  rw [Assoc.get?_eq_none_iff, Assoc.get?_eq_none_iff, h.keys_eq]

/-- Related lists are read alike. -/
theorem Aligned.rel_get? (h : Aligned r entries outs) (key : κ) :
    Option.Rel (r key) (get? entries key) (get? outs key) := by
  cases found : get? entries key with
  | none =>
    rw [(h.get?_eq_none_iff key).mpr found]
    exact .none
  | some a =>
    obtain ⟨b, found', related⟩ := h.exists_right found
    rw [found']
    exact .some related

omit [DecidableEq κ] in
/-- A reordering of one of two related lists is related to a reordering of the other one. -/
theorem Aligned.exists_perm {others : List (κ × α)} (h : Aligned r entries outs)
    (same : entries.Perm others) : ∃ moved, outs.Perm moved ∧ Aligned r others moved := by
  induction same generalizing outs with
  | nil => exact ⟨outs, .refl outs, h⟩
  | cons entry _ ih =>
    cases h with
    | cons head tail =>
      obtain ⟨moved, perm, related⟩ := ih tail
      exact ⟨_, perm.cons _, .cons head related⟩
  | swap first second rest =>
    cases h with
    | cons head tail =>
      cases tail with
      | cons next last => exact ⟨_, .swap _ _ _, .cons next (.cons head last)⟩
  | trans _ _ ihFirst ihSecond =>
    obtain ⟨between, perm, related⟩ := ihFirst h
    obtain ⟨moved, perm', related'⟩ := ihSecond related
    exact ⟨moved, perm.trans perm', related'⟩

theorem Aligned.erase (h : Aligned r entries outs) (key : κ) :
    Aligned r (erase entries key) (erase outs key) := by
  induction h with
  | nil => exact .nil
  | cons head tail ih =>
    rw [Assoc.erase, Assoc.erase]
    split
    · exact tail
    · exact .cons head ih

theorem Aligned.put (h : Aligned r entries outs) {a : α} {b : β} (related : r key a b) :
    Aligned r (put entries key a) (put outs key b) := by
  induction h with
  | nil => exact .cons related .nil
  | cons head tail ih =>
    rw [Assoc.put, Assoc.put]
    split
    · next same => exact .cons (same ▸ related) tail
    · exact .cons head ih

theorem Aligned.putAll {added : List (κ × α)} {addedOuts : List (κ × β)}
    (h : Aligned r entries outs) (new : Aligned r added addedOuts) :
    Aligned r (putAll entries added) (putAll outs addedOuts) := by
  induction new generalizing entries outs with
  | nil => exact h
  | cons head _ ih => exact ih (h.put head)

/-! ### Lists with the same entries -/

/-- Lists with distinct keys that are read alike have the same entries. -/
theorem perm_of_get?_eq {entries others : List (κ × α)} (distinct : (keys entries).Nodup)
    (distinct' : (keys others).Nodup) (alike : ∀ key, get? entries key = get? others key) :
    entries.Perm others := by
  have nodup {list : List (κ × α)} (keysDistinct : (keys list).Nodup) : list.Nodup :=
    List.Pairwise.of_map Prod.fst (fun _ _ different same ↦ different (congrArg Prod.fst same))
      keysDistinct
  refine (List.perm_ext_iff_of_nodup (nodup distinct) (nodup distinct')).mpr fun entry ↦ ?_
  constructor
  · intro mem
    exact mem_of_get?_eq_some ((alike entry.1).symm.trans (get?_eq_some_of_mem distinct mem))
  · intro mem
    exact mem_of_get?_eq_some ((alike entry.1).trans (get?_eq_some_of_mem distinct' mem))

theorem perm_erase {entries others : List (κ × α)} (distinct : (keys entries).Nodup)
    (same : entries.Perm others) (key : κ) : (erase entries key).Perm (erase others key) := by
  have distinct' : (keys others).Nodup := (same.map Prod.fst).nodup_iff.mp distinct
  rw [erase_eq_filter distinct, erase_eq_filter distinct']
  exact same.filter _

/-- Lists with the same entries are written alike into a third one. -/
theorem perm_putAll {entries added others : List (κ × α)} (distinct : (keys entries).Nodup)
    (distinctAdded : (keys added).Nodup) (same : added.Perm others) :
    (putAll entries added).Perm (putAll entries others) := by
  have distinct' : (keys others).Nodup := (same.map Prod.fst).nodup_iff.mp distinctAdded
  refine perm_of_get?_eq (nodup_keys_putAll distinct _) (nodup_keys_putAll distinct _) fun key ↦ ?_
  rw [get?_putAll _ distinctAdded, get?_putAll _ distinct', get?_eq_of_perm distinctAdded same]

end VerbForms.Assoc
