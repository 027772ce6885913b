import VerbForms.Proofs.Json.Real

/-!
# What is read can be stored

Every value that the reader gives can be stored as text (`storable_of_read`): the reader refuses integers
with too many digits, of several members with one key it keeps one place, and all doubles are kept.
-/

namespace VerbForms.Json

variable {value : Json} {opened : List Open} {token : Token} {state next : ReadState}

theorem storableItems_iff {items : List Json} : StorableItems items ↔ ∀ item ∈ items, item.Storable := by
  induction items with
  | nil => exact iff_of_true trivial nofun
  | cons item rest ih => rw [StorableItems, ih, List.forall_mem_cons]

theorem storableMembers_iff {members : Members} :
    StorableMembers members ↔ ∀ entry ∈ members, (entry.2 : Json).Storable := by
  induction members with
  | nil => exact iff_of_true trivial nofun
  | cons entry rest ih => rw [StorableMembers, ih, List.forall_mem_cons]

mutual

/-- A value that can be stored has distinct keys. -/
theorem Storable.distinctKeys : ∀ {value : Json}, value.Storable → value.DistinctKeys
  | .array _, storable => StorableItems.distinctKeys storable
  | .object _, storable => ⟨storable.1, StorableMembers.distinctKeys storable.2⟩
  | .null, _ | .bool _, _ | .int _, _ | .real _, _ | .text _, _ => trivial

theorem StorableItems.distinctKeys : ∀ {items : List Json}, StorableItems items → DistinctKeysItems items
  | [], _ => trivial
  | _ :: _, storable => ⟨storable.1.distinctKeys, StorableItems.distinctKeys storable.2⟩

theorem StorableMembers.distinctKeys :
    ∀ {members : Members}, StorableMembers members → DistinctKeysMembers members
  | [], _ => trivial
  | _ :: _, storable => ⟨storable.1.distinctKeys, StorableMembers.distinctKeys storable.2⟩

end

/-! ### Tokens -/

/-- The value that the token is, if it is one, can be stored. -/
def Token.Storable : Token → Prop
  | .atom value => value.Storable
  | _ => True

theorem storable_real {x : Double} (canonical : x.Canonical) : (Json.real x).Storable := by
  cases x with
  | finite negative m e => exact keepsDouble_of_canonical canonical
  | _ => trivial

theorem naturalOf_lt {digits : List Char} (all : ∀ c ∈ digits, c.isDigit = true) :
    Text.naturalOf digits < 10 ^ digits.length := by
  induction digits using List.reverseRecOn with
  | nil => exact Nat.one_pos
  | append_singleton digits d ih =>
    rw [List.forall_mem_append, List.forall_mem_singleton] at all
    have before := ih all.1
    have value : d.toNat - '0'.toNat ≤ 9 := by
      have last := all.2
      simp only [Char.isDigit, Bool.and_eq_true, decide_eq_true_eq, UInt32.le_iff_toNat_le] at last
      exact Nat.sub_le_iff_le_add.mpr last.2
    rw [Text.naturalOf, List.foldl_append, List.length_append, List.length_singleton, pow_succ]
    rw [Text.naturalOf] at before
    simp only [List.foldl_cons, List.foldl_nil]
    omega

theorem isDigit_of_mem_scanWhole {cs : List Char} : ∀ c ∈ scanWhole cs, c.isDigit = true := by
  cases cs with
  | nil => exact nofun
  | cons c cs =>
    rw [scanWhole]
    split
    · exact List.forall_mem_singleton.mpr rfl
    · exact fun _ mem ↦ List.mem_takeWhile_imp mem

theorem storable_scanNumber {negative : Bool} {cs : List Char} {length : Nat}
    (found : scanNumber negative cs = some (token, length)) : token.Storable := by
  rw [scanNumber_eq] at found
  split at found
  · cases found
  · have found := Option.some.inj found
    unfold numberToken at found
    split at found
    · split at found
      · cases found
        trivial
      · next within =>
        cases found
        have number : Text.naturalOf (scanWhole cs) < 10 ^ (scanWhole cs).length :=
          naturalOf_lt isDigit_of_mem_scanWhole
        have few : Text.naturalOf (scanWhole cs) < 10 ^ mostIntegerDigits :=
          number.trans_le (Nat.pow_le_pow_right (by decide) (not_lt.mp within))
        have digits := (Nat.length_toDigits_le_iff (by decide) (by decide)).mpr few
        cases negative <;> simpa [Token.Storable, Storable, naturalText] using digits
    · cases found
      exact storable_real (Double.canonical_ofDecimal ..)

theorem storable_scanAtom {c : Char} {cs : List Char} {length : Nat}
    (found : scanAtom c cs = some (token, length)) : token.Storable := by
  rw [scanAtom, Option.or_eq_some_iff] at found
  rcases found with isWord | ⟨-, isNumber⟩
  · have plain : ∀ entry ∈ words, (entry.2 : Json).Storable := by simp [words, Storable]
    obtain ⟨entry, mem, same⟩ := List.exists_of_findSome?_eq_some isWord
    dsimp only at same
    split at same
    · cases same
      exact plain entry mem
    · cases same
  · split at isNumber
    · obtain ⟨⟨t, n⟩, number, same⟩ := Option.map_eq_some_iff.mp isNumber
      cases same
      exact storable_scanNumber number
    · exact storable_scanNumber isNumber

theorem storable_scanToken (position : Nat) (c : Char) (cs : List Char) :
    (scanToken position c cs).1.Storable := by
  unfold scanToken
  repeat' split
  all_goals try trivial
  next found => exact storable_scanAtom found

theorem storable_tokensFrom (skip position : Nat) (cs : List Char) :
    ∀ located ∈ tokensFrom skip position cs, located.token.Storable := by
  induction cs generalizing skip position with
  | nil =>
    have ends : tokensFrom skip position [] = [⟨position, .finish⟩] := by
      cases skip <;> rfl
    rw [ends]
    exact List.forall_mem_singleton.mpr trivial
  | cons c cs ih =>
    cases skip with
    | succ skip => exact ih skip (position + 1)
    | zero =>
      rw [tokensFrom]
      split
      · exact ih 0 (position + 1)
      · exact List.forall_mem_cons.mpr ⟨storable_scanToken position c cs, ih _ (position + 1)⟩

/-! ### States -/

/-- The members read so far can be stored. -/
def MembersStorable (done : Members) : Prop :=
  (Assoc.keys done).Nodup ∧ ∀ entry ∈ done, (entry.2 : Json).Storable

/-- What has been read of the array or object can be stored. -/
def Open.Storable : Open → Prop
  | .items done => ∀ item ∈ done, item.Storable
  | .members done _ => MembersStorable done

/-- What has been read can be stored. -/
def ReadState.Storable : ReadState → Prop
  | .value opened | .firstItem opened | .firstKey opened => ∀ o ∈ opened, o.Storable
  | .afterItem done opened => (∀ item ∈ done, item.Storable) ∧ ∀ o ∈ opened, o.Storable
  | .key done opened | .colon done _ opened | .afterMember done opened =>
    MembersStorable done ∧ ∀ o ∈ opened, o.Storable
  | .complete value => value.Storable

theorem storable_deliver (storable : value.Storable) (h : ∀ o ∈ opened, o.Storable) :
    (deliver value opened).Storable := by
  cases opened with
  | nil => exact storable
  | cons o opened =>
    obtain ⟨first, rest⟩ := List.forall_mem_cons.mp h
    cases o with
    | items done => exact ⟨List.forall_mem_cons.mpr ⟨storable, first⟩, rest⟩
    | members done key =>
      obtain ⟨distinct, values⟩ := first
      refine ⟨⟨Assoc.nodup_keys_put distinct key value, fun entry mem ↦ ?_⟩, rest⟩
      rcases Assoc.mem_put mem with rfl | old
      · exact storable
      · exact values entry old

theorem storable_beginValue {position : Nat} (storable : token.Storable) (h : ∀ o ∈ opened, o.Storable)
    (step : beginValue position opened token = .ok next) : next.Storable := by
  cases token with
  | atom value => cases step; exact storable_deliver storable h
  | text s => cases step; exact storable_deliver trivial h
  | openArray => cases step; exact h
  | openObject => cases step; exact h
  | _ => cases step

theorem storable_beginMember {position : Nat} {done : Members} (members : MembersStorable done)
    (h : ∀ o ∈ opened, o.Storable) (step : beginMember position done opened token = .ok next) :
    next.Storable := by
  cases token with
  | text key => cases step; exact ⟨members, h⟩
  | broken error => cases error <;> cases step
  | _ => cases step

/-- **One more token**, whose value can be stored, leaves what has been read in order. -/
theorem storable_readStep {position : Nat} (storable : token.Storable) (h : state.Storable)
    (step : readStep position token state = .ok next) : next.Storable := by
  cases state with
  | value opened => exact storable_beginValue storable h step
  | firstItem opened =>
    unfold readStep at step
    dsimp only at step
    split at step
    · cases step
      exact storable_deliver trivial h
    · have none : (Open.items []).Storable := nofun
      exact storable_beginValue storable (List.forall_mem_cons.mpr ⟨none, h⟩) step
  | afterItem done opened =>
    obtain ⟨items, h⟩ := h
    unfold readStep at step
    dsimp only at step
    split at step
    · cases step
      refine storable_deliver ?_ h
      rw [Storable, storableItems_iff]
      exact fun item mem ↦ items item (List.mem_reverse.mp mem)
    · cases step
      exact List.forall_mem_cons.mpr ⟨items, h⟩
    · cases step
  | firstKey opened =>
    unfold readStep at step
    dsimp only at step
    split at step
    · cases step
      exact storable_deliver ⟨List.nodup_nil, trivial⟩ h
    · have none : MembersStorable [] := ⟨List.nodup_nil, nofun⟩
      exact storable_beginMember none h step
  | key done opened => exact storable_beginMember h.1 h.2 step
  | colon done key opened =>
    unfold readStep at step
    dsimp only at step
    split at step
    · cases step
      exact List.forall_mem_cons.mpr h
    · cases step
  | afterMember done opened =>
    obtain ⟨⟨distinct, values⟩, h⟩ := h
    unfold readStep at step
    dsimp only at step
    split at step
    · cases step
      exact storable_deliver ⟨distinct, storableMembers_iff.mpr values⟩ h
    · cases step
      exact ⟨⟨distinct, values⟩, h⟩
    · cases step
  | complete value => cases step

theorem storable_readTokens {tokens : List Located} (storable : ∀ located ∈ tokens, located.token.Storable)
    (h : state.Storable) (read : readTokens state tokens = .ok value) : value.Storable := by
  induction tokens generalizing state with
  | nil => cases state <;> cases read
  | cons located rest ih =>
    obtain ⟨first, others⟩ := List.forall_mem_cons.mp storable
    unfold readTokens at read
    split at read
    · next last _ =>
      cases read
      exact h
    · next there =>
      cases there
      obtain ⟨next, step, read⟩ := bind_eq_ok.mp read
      exact ih others (storable_readStep first h step) read
    · next none => cases none

/-- **A value that has been read can be stored.** -/
theorem storable_of_read {cs : List Char} (read : readChars cs = .ok value) : value.Storable := by
  have start : (ReadState.value []).Storable := nofun
  exact storable_readTokens (storable_tokensFrom 0 0 cs) start read

end VerbForms.Json
