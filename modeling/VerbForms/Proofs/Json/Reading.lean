import VerbForms.Json.Read
import VerbForms.Proofs.Json.Atom
import VerbForms.Proofs.Json.Quoted
import VerbForms.Proofs.Success

/-!
# Reading piece by piece

`Leads` says that the machine gets over the beginning of a text: what it makes of the text in one
state it makes of the rest in another one. There is one statement for blanks, for the tokens that
are single characters, for quoted texts, and for numbers and words.
-/

namespace VerbForms.Json

variable {state next last : ReadState} {c : Char} {cs rest behind : List Char} {token : Token}
variable {length position : Nat} {value : Json} {opened : List Open}

/-- Reading a text in a state comes down to reading its rest in the next state. -/
def Leads (state : ReadState) (cs : List Char) (next : ReadState) (rest : List Char) : Prop :=
  ∀ position, ∃ position', readTokens state (tokensFrom 0 position cs) =
    readTokens next (tokensFrom 0 position' rest)

theorem Leads.refl (state : ReadState) (cs : List Char) : Leads state cs state cs :=
  fun position ↦ ⟨position, rfl⟩

theorem Leads.trans (first : Leads state cs next rest) (second : Leads next rest last behind) :
    Leads state cs last behind := by
  intro position
  obtain ⟨position', same⟩ := first position
  obtain ⟨position'', same'⟩ := second position'
  exact ⟨position'', same.trans same'⟩

/-! ### Blanks and tokens -/

theorem tokensFrom_skip {skip : Nat} (within : skip ≤ cs.length) (position : Nat) :
    tokensFrom skip position cs = tokensFrom 0 (position + skip) (cs.drop skip) := by
  induction skip generalizing cs position with
  | zero => rfl
  | succ skip ih =>
    cases cs with
    | nil => cases within
    | cons c cs =>
      rw [tokensFrom, ih (Nat.le_of_succ_le_succ within), List.drop_succ_cons, Nat.add_right_comm]
      rfl

theorem tokensFrom_token (noSeparator : isSeparator c = false) (position : Nat) :
    tokensFrom 0 position (c :: cs) =
      ⟨position, (scanToken position c cs).1⟩ ::
        tokensFrom (scanToken position c cs).2 (position + 1) cs := by
  rw [tokensFrom, noSeparator]
  rfl

theorem leads_separators (h : ∀ c ∈ cs, isSeparator c = true) (state : ReadState)
    (rest : List Char) : Leads state (cs ++ rest) state rest := by
  induction cs with
  | nil => exact Leads.refl state rest
  | cons c cs ih =>
    obtain ⟨first, others⟩ := List.forall_mem_cons.mp h
    intro position
    obtain ⟨position', same⟩ := ih others (position + 1)
    refine ⟨position', ?_⟩
    rw [List.cons_append, tokensFrom, if_pos first, same]

theorem leads_blank (state : ReadState) (rest : List Char) : Leads state (' ' :: rest) state rest :=
  leads_separators (List.forall_mem_singleton.mpr rfl) state rest

/-- A token that the machine accepts is read. -/
theorem leads_token (noSeparator : isSeparator c = false)
    (scan : ∀ position, scanToken position c cs = (token, length)) (within : length ≤ cs.length)
    (step : ∀ position, readStep position token state = .ok next) :
    Leads state (c :: cs) next (cs.drop length) := by
  intro position
  refine ⟨position + 1 + length, ?_⟩
  rw [tokensFrom_token noSeparator, scan, ← tokensFrom_skip within]
  cases state with
  | complete value => cases step 0
  | _ =>
    rw [readTokens, step]
    · rfl
    · simp

/-- A token of a single character is read. -/
theorem leads_char (noSeparator : isSeparator c = false)
    (scan : ∀ position, scanToken position c rest = (token, 0))
    (step : ∀ position, readStep position token state = .ok next) :
    Leads state (c :: rest) next rest :=
  leads_token noSeparator scan (Nat.zero_le rest.length) step

/-- A quoted text is read as a whole. -/
theorem leads_quotedText (s : List Char) (rest : List Char)
    (step : ∀ position, readStep position (.text (String.ofList s)) state = .ok next) :
    Leads state (quotedText s ++ rest) next rest := by
  have text : quotedText s ++ rest = '"' :: (s.flatMap charText ++ '"' :: rest) := by
    simp [quotedText]
  have scan (position : Nat) :
      scanToken position '"' (s.flatMap charText ++ '"' :: rest) =
        (.text (String.ofList s), (s.flatMap charText).length + 1) := by
    have pieces := scanText_quoted position (position + 1) [] s rest
    rw [List.reverse_nil, List.nil_append] at pieces
    have length : position + 1 + (s.flatMap charText).length + 1 - (position + 1) =
        (s.flatMap charText).length + 1 := by
      omega
    unfold scanToken
    simp only [pieces, joinPieces_flatMap, length]
    rfl
  have within : (s.flatMap charText).length + 1 ≤ (s.flatMap charText ++ '"' :: rest).length := by
    rw [List.length_append, List.length_cons]
    omega
  have leads := leads_token (by decide) scan within step
  rwa [← text, List.drop_append, List.drop_of_length_le (Nat.le_add_right _ 1),
    Nat.add_sub_cancel_left, List.nil_append, List.drop_one, List.tail_cons] at leads

/-! ### Values -/

/-- A value is expected, which will go to these open arrays and objects. -/
inductive Expects : ReadState → List Open → Prop where
  | value (opened : List Open) : Expects (.value opened) opened
  | firstItem (opened : List Open) : Expects (.firstItem opened) (.items [] :: opened)

/-- Where a value is expected, any token but the end of an array begins one. -/
theorem Expects.readStep (h : Expects state opened) (noEnd : token ≠ .closeArray)
    (position : Nat) : readStep position token state = beginValue position opened token := by
  cases h with
  | value => rfl
  | firstItem => 
    cases token with
    | closeArray => exact absurd rfl noEnd
    | _ => rfl

theorem isSeparator_of_startsAtom (start : StartsAtom c) : isSeparator c = false := by
  simp [StartsAtom, boundaries] at start
  simp [isSeparator, start]

theorem scanToken_of_startsAtom (start : StartsAtom c) (position : Nat) (cs : List Char) :
    scanToken position c cs =
      match scanAtom c cs with
      | some (token, length) => (token, length - 1)
      | none => (.stray, 0) := by
  simp [StartsAtom, boundaries] at start
  rcases found : scanAtom c cs with _ | ⟨token, length⟩ <;> simp [scanToken, start, found]

/-- A number or a word is read where a value is expected, with the blanks behind it. -/
theorem leads_atom (start : StartsAtom c) (scan : scanAtom c cs = some (.atom value, length))
    (blanks : ∀ b ∈ cs.drop (length - 1), isSeparator b = true) (expects : Expects state opened)
    (bounded : Bounded rest) : Leads state (c :: cs ++ rest) (deliver value opened) rest := by
  have within := (scanAtom_le scan).1
  have token (position : Nat) :
      scanToken position c (cs ++ rest) = (.atom value, length - 1) := by
    rw [scanToken_of_startsAtom start, scanAtom_append bounded, scan]
  have read := leads_token (isSeparator_of_startsAtom start) token
    (by rw [List.length_append]; omega) (expects.readStep (by simp))
  rw [List.drop_append_of_le_length (by omega)] at read
  exact read.trans (leads_separators blanks _ rest)

/-! ### Numbers and words on their own -/

private theorem scanToken_ne_finish (position : Nat) (c : Char) (cs : List Char) :
    (scanToken position c cs).1 ≠ .finish := by
  unfold scanToken
  repeat' split
  all_goals try simp
  next found =>
    rintro rfl
    rcases (scanAtom_le found).2 with same | ⟨value, same⟩ <;> cases same

/-- Behind a complete value only blanks are read. -/
theorem readTokens_complete {skip : Nat} {value' : Json}
    (h : readTokens (.complete value) (tokensFrom skip position cs) = .ok value') :
    value = value' ∧ ∀ b ∈ cs.drop skip, isSeparator b = true := by
  induction cs generalizing skip position with
  | nil =>
    have ends : tokensFrom skip position [] = [⟨position, .finish⟩] := by
      cases skip <;> rfl
    rw [ends] at h
    rw [List.drop_nil]
    exact ⟨Except.ok.inj h, fun _ mem ↦ by cases mem⟩
  | cons c cs ih =>
    cases skip with
    | succ skip => exact ih h
    | zero =>
      by_cases blank : isSeparator c = true
      · rw [tokensFrom, if_pos blank] at h
        obtain ⟨same, blanks⟩ := ih h
        exact ⟨same, List.forall_mem_cons.mpr ⟨blank, blanks⟩⟩
      · rw [tokensFrom_token (by simpa using blank)] at h
        have goesOn := scanToken_ne_finish position c cs
        generalize (scanToken position c cs).1 = token at h goesOn
        cases token with
        | finish => exact absurd rfl goesOn
        | _ => cases h

/-- A text that is read as a value and begins like a number or a word is one, up to blanks. -/
theorem exists_scanAtom_of_readChars (start : StartsAtom c)
    (h : readChars (c :: cs) = .ok value) :
    ∃ length, scanAtom c cs = some (.atom value, length) ∧
      ∀ b ∈ cs.drop (length - 1), isSeparator b = true := by
  rw [readChars, tokens, tokensFrom_token (isSeparator_of_startsAtom start),
    scanToken_of_startsAtom start] at h
  cases found : scanAtom c cs with
  | none =>
    rw [found] at h
    cases h
  | some entry =>
    obtain ⟨token, length⟩ := entry
    rw [found] at h
    rcases (scanAtom_le found).2 with rfl | ⟨value', rfl⟩
    · cases h
    · obtain ⟨rfl, blanks⟩ := readTokens_complete h
      exact ⟨length, rfl, blanks⟩

end VerbForms.Json
