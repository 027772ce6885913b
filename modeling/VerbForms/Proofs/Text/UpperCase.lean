import VerbForms.Text.UpperCase

/-!
# Upper case stays

The upper case of a text is its own upper case: no letter that upper-casing gives is one that it changes.
The two sets of letters are compared once, as numbers whose bits say which letters are in them. The blank
and the comma are given for themselves alone, so that a text without a blank has none in upper case.
-/

namespace VerbForms.Text

/-! ### Sets of letters -/

/-- The number with the bits of these places. -/
def bits : List Nat → Nat
  | [] => 0
  | place :: places => 1 <<< place ||| bits places

theorem testBit_bits (places : List Nat) (place : Nat) :
    (bits places).testBit place = decide (place ∈ places) := by
  induction places with
  | nil => simp [bits]
  | cons first places ih =>
    rw [bits, Nat.testBit_or, ih, Nat.one_shiftLeft, Nat.testBit_two_pow]
    simp [eq_comm]

/-- Lists whose numbers have no bit in common have no member in common. -/
theorem not_mem_of_bits {left right : List Nat} (apart : bits left &&& bits right = 0) {place : Nat}
    (mem : place ∈ left) : place ∉ right := by
  have bit := congrArg (Nat.testBit · place) apart
  simp [testBit_bits, mem] at bit
  exact bit

/-- The letters of a run. -/
def CaseRun.letters (run : CaseRun) : List Nat :=
  (List.range ((run.last - run.first) / run.step + 1)).map (run.first + run.step * ·)

theorem CaseRun.mem_letters {run : CaseRun} {code : Nat} (holds : run.holds code = true) :
    code ∈ run.letters := by
  simp only [CaseRun.holds, Bool.and_eq_true, decide_eq_true_eq, beq_iff_eq] at holds
  obtain ⟨⟨first, last⟩, whole⟩ := holds
  refine List.mem_map.mpr ⟨(code - run.first) / run.step, List.mem_range.mpr ?_, ?_⟩
  · exact Nat.lt_succ_of_le (Nat.div_le_div_right (Nat.sub_le_sub_right last _))
  · rw [Nat.mul_div_cancel' (Nat.dvd_of_mod_eq_zero whole), Nat.add_sub_cancel' first]

/-- The letters that upper-casing changes. -/
def changedLetters : List Nat := caseRuns.flatMap CaseRun.letters ++ longCases.map Prod.fst

/-- The letters that upper-casing gives for those that it changes. -/
def tableLetters : List Nat :=
  caseRuns.flatMap (fun run ↦
      run.letters.map fun code : Nat ↦ (Char.ofNat (code + run.distance).toNat).toNat) ++
    longCases.flatMap fun entry ↦ entry.2.map fun code ↦ (Char.ofNat code).toNat

/-- The letters that upper-casing gives for those that it changes and for ASCII. -/
def givenLetters : List Nat :=
  (List.range 128).map (fun code ↦ (Char.ofNat code).toUpper.toNat) ++ tableLetters

theorem givenLetters_apart : bits givenLetters &&& bits changedLetters = 0 := by decide +kernel

/-! ### Upper case -/

/-- A letter that is not in the tables is left alone. -/
theorem upperChar_of_not_mem {c : Char} (unchanged : c.toNat ∉ changedLetters) : upperChar c = [c] := by
  rw [changedLetters, List.mem_append, not_or] at unchanged
  have noRun : ∀ run ∈ caseRuns, run.holds c.toNat = false := fun run mem ↦
    Bool.eq_false_iff.mpr fun holds ↦
      unchanged.1 (List.mem_flatMap.mpr ⟨run, mem, CaseRun.mem_letters holds⟩)
  rw [upperChar]
  split
  · -- The first run is that of the lower-case letters of ASCII.
    have notLower : 0x61 ≤ c.toNat → 0x7A < c.toNat := by
      simpa [CaseRun.holds, Nat.mod_one] using noRun ⟨0x61, 0x7A, 1, -32⟩ List.mem_cons_self
    have same : c.toUpper = c := dif_neg fun ⟨first, last⟩ ↦
      absurd (notLower first) (Nat.not_lt.mpr last)
    rw [same]
  · have noEntry : longCases.lookup c.toNat = none :=
      List.lookup_eq_none_iff.mpr fun entry mem ↦ bne_iff_ne.mpr fun same ↦
        unchanged.2 (List.mem_map.mpr ⟨entry, mem, same.symm⟩)
    have found : caseRuns.find? (·.holds c.toNat) = none := by
      simpa using noRun
    rw [upperBeyondAscii, found, noEntry]
    rfl

/-- What upper-casing gives for a letter: its upper case in ASCII, a letter of the tables, or itself. -/
theorem upperChar_cases {c d : Char} (mem : d ∈ upperChar c) :
    c.toNat < 128 ∧ d = c.toUpper ∨ d.toNat ∈ tableLetters ∨ upperChar d = [d] ∧ d = c := by
  by_cases ascii : c.toNat < 128
  · exact .inl ⟨ascii, by simpa [upperChar, ascii] using mem⟩
  · have beyond : upperChar c = upperBeyondAscii c := if_neg ascii
    rw [beyond, upperBeyondAscii] at mem
    right
    split at mem
    · next run found =>
      obtain rfl : d = Char.ofNat (c.toNat + run.distance).toNat := by simpa using mem
      have holds : run.holds c.toNat = true := by simpa using List.find?_some found
      refine .inl (List.mem_append_left _ ?_)
      refine List.mem_flatMap.mpr ⟨run, List.mem_of_find?_eq_some found, ?_⟩
      exact List.mem_map.mpr ⟨c.toNat, CaseRun.mem_letters holds, rfl⟩
    · next none =>
      cases found : longCases.lookup c.toNat with
      | some codes =>
        rw [found] at mem
        obtain ⟨code, letter, rfl⟩ := List.mem_map.mp mem
        obtain ⟨before, after, split, -⟩ := List.lookup_eq_some_iff.mp found
        refine .inl (List.mem_append_right _ (List.mem_flatMap.mpr ⟨(c.toNat, codes), ?_, ?_⟩))
        · rw [split]
          exact List.mem_append_right _ List.mem_cons_self
        · exact List.mem_map.mpr ⟨code, letter, rfl⟩
      | none =>
        rw [found] at mem
        obtain rfl : d = c := by simpa using mem
        exact .inr ⟨by rw [beyond, upperBeyondAscii, none, found]; rfl, rfl⟩

/-- Upper-casing gives a letter of the list, or leaves a letter alone. -/
theorem mem_upperChar {c d : Char} (mem : d ∈ upperChar c) :
    d.toNat ∈ givenLetters ∨ upperChar d = [d] := by
  rw [givenLetters, List.mem_append]
  rcases upperChar_cases mem with ⟨ascii, rfl⟩ | listed | ⟨rests, -⟩
  · refine .inl (.inl (List.mem_map.mpr ⟨c.toNat, List.mem_range.mpr ascii, ?_⟩))
    rw [Char.ofNat_toNat]
  · exact .inl (.inr listed)
  · exact .inr rests

/-- A letter that neither the tables nor another letter of ASCII give is given for itself alone. -/
theorem eq_of_mem_upperChar {c d : Char} (unlisted : (bits tableLetters).testBit d.toNat = false)
    (inAscii : ∀ code < 128, d = (Char.ofNat code).toUpper → Char.ofNat code = d) (mem : d ∈ upperChar c) :
    c = d := by
  rcases upperChar_cases mem with ⟨ascii, same⟩ | listed | ⟨-, rfl⟩
  · have found := inAscii c.toNat ascii
    rw [Char.ofNat_toNat] at found
    exact found same
  · rw [testBit_bits] at unlisted
    exact absurd listed (of_decide_eq_false unlisted)
  · rfl

/-- No letter but the blank gives a blank. -/
theorem blank_mem_upperChar {c : Char} (mem : ' ' ∈ upperChar c) : c = ' ' :=
  eq_of_mem_upperChar (by decide +kernel) (by decide) mem

/-- No letter but the comma gives a comma. -/
theorem comma_mem_upperChar {c : Char} (mem : ',' ∈ upperChar c) : c = ',' :=
  eq_of_mem_upperChar (by decide +kernel) (by decide) mem

/-- What is given for itself alone is in a text in upper case only if it was there before. -/
theorem not_mem_upper {d : Char} {s : String} (alone : ∀ c, d ∈ upperChar c → c = d) (plain : d ∉ s.toList) :
    d ∉ (upper s).toList := by
  intro mem
  rw [upper, String.toList_ofList] at mem
  obtain ⟨c, there, mem⟩ := List.mem_flatMap.mp mem
  exact plain (alone c mem ▸ there)

/-- A text without a blank has none in upper case. -/
theorem blank_not_mem_upper {s : String} (plain : ' ' ∉ s.toList) : ' ' ∉ (upper s).toList :=
  not_mem_upper (fun _ ↦ blank_mem_upperChar) plain

/-- A text without a comma has none in upper case. -/
theorem comma_not_mem_upper {s : String} (plain : ',' ∉ s.toList) : ',' ∉ (upper s).toList :=
  not_mem_upper (fun _ ↦ comma_mem_upperChar) plain

theorem upperChar_of_mem_upperChar {c d : Char} (mem : d ∈ upperChar c) : upperChar d = [d] := by
  rcases mem_upperChar mem with given | rests
  · exact upperChar_of_not_mem (not_mem_of_bits givenLetters_apart given)
  · exact rests

/-- Letters that are left alone one by one are left alone together. -/
theorem flatMap_upperChar {cs : List Char} (rests : ∀ c ∈ cs, upperChar c = [c]) :
    cs.flatMap upperChar = cs := by
  induction cs with
  | nil => rfl
  | cons c cs ih =>
    rw [List.flatMap_cons, rests c List.mem_cons_self, ih fun d mem ↦ rests d (List.mem_cons_of_mem _ mem)]
    rfl

/-- **The upper case of a text is its own upper case.** -/
theorem upper_upper (s : String) : upper (upper s) = upper s := by
  rw [upper, upper, String.toList_ofList, flatMap_upperChar]
  intro d mem
  obtain ⟨c, -, mem⟩ := List.mem_flatMap.mp mem
  exact upperChar_of_mem_upperChar mem

/-! ### Case in ASCII -/

theorem upperChar_toLower (c : Char) : upperChar c.toLower = upperChar c := by
  by_cases letter : 'A' ≤ c ∧ c ≤ 'Z'
  · have inAscii : ∀ code < 128, upperChar (Char.ofNat code).toLower = upperChar (Char.ofNat code) := by
      decide
    have ascii : c.toNat < 128 := Nat.lt_of_le_of_lt (Char.le_def.mp letter.2) (by decide)
    have same := inAscii c.toNat ascii
    rwa [Char.ofNat_toNat] at same
  · have same : c.toLower = c := dif_neg letter
    rw [same]

/-- Texts that differ in the case of letters of ASCII only have the same upper case. -/
theorem upper_eq_of_toLower_eq {s t : String} (same : s.toList.map Char.toLower = t.toList.map Char.toLower) :
    upper s = upper t := by
  have lowered (cs : List Char) : (cs.map Char.toLower).flatMap upperChar = cs.flatMap upperChar := by
    rw [List.flatMap_map]
    exact congrArg cs.flatMap (funext upperChar_toLower)
  rw [upper, upper, ← lowered, same, lowered]

end VerbForms.Text
