import VerbForms.Proofs.Text.UpperCase
import VerbForms.Text.Blank
import Mathlib.Data.List.TakeWhile

/-!
# Texts that are not blank

A text with a character that is no blank keeps it when the blanks at its ends go, and has such a character
in upper case too. Texts that are blank are the ones that nothing is left of.
-/

namespace VerbForms.Text

variable {cs : List Char} {c d : Char} {s : String}

/-- The text has a character that is no blank. -/
def Filled (s : String) : Prop := ∃ c ∈ s.toList, isBlank c = false

theorem Filled.ne_empty (filled : Filled s) : s ≠ "" := by
  rintro rfl
  obtain ⟨c, mem, -⟩ := filled
  cases mem

/-! ### Trimming -/

/-- Only what a test holds for is dropped at the front. -/
theorem mem_dropWhile {test : Char → Bool} (mem : c ∈ cs) (fails : test c = false) : c ∈ cs.dropWhile test := by
  rw [← List.takeWhile_append_dropWhile (p := test) (l := cs)] at mem
  refine (List.mem_append.mp mem).resolve_left fun dropped ↦ ?_
  rw [List.mem_takeWhile_imp dropped] at fails
  cases fails

theorem mem_trimChars (mem : c ∈ cs) (plain : isBlank c = false) : c ∈ trimChars cs :=
  List.mem_reverse.mpr (mem_dropWhile (List.mem_reverse.mpr (mem_dropWhile mem plain)) plain)

theorem trimChars_subset (cs : List Char) : trimChars cs ⊆ cs := fun _ mem ↦
  (List.dropWhile_sublist _).subset
    (List.mem_reverse.mp ((List.dropWhile_sublist _).subset (List.mem_reverse.mp mem)))

theorem trimChars_of_blank (blank : ∀ c ∈ cs, isBlank c = true) : trimChars cs = [] := by
  rw [trimChars, List.dropWhile_eq_nil_iff.mpr blank]
  rfl

theorem Filled.trim (filled : Filled s) : Filled (trim s) := by
  obtain ⟨c, mem, plain⟩ := filled
  exact ⟨c, String.toList_ofList.symm ▸ mem_trimChars mem plain, plain⟩

/-- Something is left of a text without the blanks at its ends if it is not blank. -/
theorem trim_ne_empty_iff : Text.trim s ≠ "" ↔ Filled s := by
  refine ⟨fun some ↦ ?_, fun filled ↦ filled.trim.ne_empty⟩
  by_contra blank
  refine some (String.toList_inj.mp ?_)
  rw [Text.trim, String.toList_ofList]
  refine trimChars_of_blank fun c mem ↦ ?_
  by_contra plain
  exact blank ⟨c, mem, Bool.eq_false_iff.mpr plain⟩

/-- Neither end of the text is a blank. -/
structure IsTrimmed (cs : List Char) : Prop where
  first : ∀ c, cs.head? = some c → isBlank c = false
  last : ∀ c, cs.getLast? = some c → isBlank c = false

theorem head?_dropWhile (found : (cs.dropWhile isBlank).head? = some c) : isBlank c = false := by
  have first := List.head?_dropWhile_not isBlank cs
  rwa [found] at first

theorem isTrimmed_trimChars (cs : List Char) : IsTrimmed (trimChars cs) := by
  constructor
  · intro c first
    obtain ⟨rest, same⟩ := List.head?_eq_some_iff.mp first
    obtain ⟨back, whole⟩ := List.reverse_prefix.mpr
      (List.dropWhile_suffix (l := (cs.dropWhile isBlank).reverse) isBlank)
    rw [List.reverse_reverse] at whole
    rw [trimChars] at same
    have dropped : (cs.dropWhile isBlank).head? = some c := by
      rw [← whole, same]
      rfl
    exact head?_dropWhile dropped
  · intro c last
    rw [trimChars, List.getLast?_reverse] at last
    exact head?_dropWhile last

/-- A character that is no blank can stand in front of a text. -/
theorem isTrimmed_cons (plain : isBlank c = false) (last : ∀ d, cs.getLast? = some d → isBlank d = false) :
    IsTrimmed (c :: cs) := by
  refine ⟨fun d front ↦ ?_, fun d back ↦ ?_⟩
  · obtain rfl := Option.some.inj front
    exact plain
  · cases cs with
    | nil =>
      obtain rfl := Option.some.inj back
      exact plain
    | cons e rest =>
      rw [List.getLast?_cons_of_ne_nil (List.cons_ne_nil e rest)] at back
      exact last d back

/-- A text without blanks at its ends stays as it is. -/
theorem IsTrimmed.trimChars_eq (trimmed : IsTrimmed cs) : trimChars cs = cs := by
  have dropped {cs : List Char} (first : ∀ c, cs.head? = some c → isBlank c = false) :
      cs.dropWhile isBlank = cs := by
    cases cs with
    | nil => rfl
    | cons c cs => exact List.dropWhile_cons_of_neg (by simp [first c rfl])
  rw [trimChars, dropped trimmed.first, dropped fun c first ↦ trimmed.last c ?_, List.reverse_reverse]
  rwa [List.head?_reverse] at first

/-- Blanks around a text do not count. -/
theorem trimChars_append {front back : List Char} (frontBlank : ∀ c ∈ front, isBlank c = true)
    (backBlank : ∀ c ∈ back, isBlank c = true) (cs : List Char) :
    trimChars (front ++ cs ++ back) = trimChars cs := by
  rw [trimChars, trimChars, List.append_assoc, List.dropWhile_append_of_pos frontBlank,
    List.dropWhile_append]
  split
  · next none =>
    rw [List.isEmpty_iff.mp none, List.dropWhile_eq_nil_iff.mpr backBlank]
  · rw [List.reverse_append, List.dropWhile_append_of_pos]
    exact fun c mem ↦ backBlank c (List.mem_reverse.mp mem)

/-- Trimming splits a text into blanks, what is left of it, and blanks. -/
theorem exists_blanks (cs : List Char) : ∃ front back, (∀ c ∈ front, isBlank c = true) ∧
    (∀ c ∈ back, isBlank c = true) ∧ cs = front ++ trimChars cs ++ back := by
  refine ⟨cs.takeWhile isBlank, ((cs.dropWhile isBlank).reverse.takeWhile isBlank).reverse,
    fun c mem ↦ List.mem_takeWhile_imp mem,
    fun c mem ↦ List.mem_takeWhile_imp (List.mem_reverse.mp mem), ?_⟩
  rw [trimChars, List.append_assoc, ← List.reverse_append, List.takeWhile_append_dropWhile,
    List.reverse_reverse, List.takeWhile_append_dropWhile]

/-- What is left of a text has no blanks at its ends, and stands between blanks in it. -/
theorem trimChars_eq_iff {inner : List Char} : trimChars cs = inner ↔
    IsTrimmed inner ∧ ∃ front back, (∀ c ∈ front, isBlank c = true) ∧
      (∀ c ∈ back, isBlank c = true) ∧ cs = front ++ inner ++ back := by
  constructor
  · rintro rfl
    exact ⟨isTrimmed_trimChars cs, exists_blanks cs⟩
  · rintro ⟨trimmed, front, back, frontBlank, backBlank, rfl⟩
    rw [trimChars_append frontBlank backBlank, trimmed.trimChars_eq]

/-! ### Upper case -/

/-- The blank characters. -/
def blanks : List Nat :=
  List.range' 0x09 5 ++ List.range' 0x1C 5 ++ [0x85, 0xA0, 0x1680] ++ List.range' 0x2000 11 ++
    [0x2028, 0x2029, 0x202F, 0x205F, 0x3000]

theorem mem_blanks (blank : isBlank c = true) : c.toNat ∈ blanks := by
  simp only [isBlank, Bool.or_eq_true, Bool.and_eq_true, decide_eq_true_eq, beq_iff_eq] at blank
  simp only [blanks, List.mem_append, List.mem_range'_1, List.mem_cons, List.not_mem_nil, or_false]
  omega

/-- No upper-case letter of the tables is a blank. -/
theorem tableLetters_apart : bits tableLetters &&& bits blanks = 0 := by decide +kernel

/-- A character that is no blank gives none in upper case. -/
theorem isBlank_of_mem_upperChar (plain : isBlank c = false) (mem : d ∈ upperChar c) :
    isBlank d = false := by
  have inAscii : ∀ code < 128, isBlank (Char.ofNat code) = false →
      isBlank (Char.ofNat code).toUpper = false := by decide
  rcases upperChar_cases mem with ⟨ascii, rfl⟩ | listed | ⟨-, rfl⟩
  · have upper := inAscii c.toNat ascii
    rw [Char.ofNat_toNat] at upper
    exact upper plain
  · exact Bool.eq_false_iff.mpr fun blank ↦ not_mem_of_bits tableLetters_apart listed (mem_blanks blank)
  · exact plain

/-- Upper-casing gives at least one letter. -/
theorem upperChar_ne_nil (c : Char) : upperChar c ≠ [] := by
  have long : ∀ entry ∈ longCases, entry.2 ≠ [] := by decide
  rw [upperChar]
  split
  · exact List.cons_ne_nil _ _
  · rw [upperBeyondAscii]
    split
    · exact List.cons_ne_nil _ _
    · cases found : longCases.lookup c.toNat with
      | none => exact List.cons_ne_nil _ _
      | some codes =>
        obtain ⟨before, after, split, -⟩ := List.lookup_eq_some_iff.mp found
        have entry : (c.toNat, codes) ∈ longCases := by
          rw [split]
          exact List.mem_append_right _ List.mem_cons_self
        exact fun none ↦ long _ entry (List.map_eq_nil_iff.mp none)

/-- In upper case the ends of a text are no blanks if they were none. -/
theorem IsTrimmed.upper (trimmed : IsTrimmed cs) : IsTrimmed (cs.flatMap upperChar) := by
  constructor
  · intro d first
    cases cs with
    | nil => cases first
    | cons c cs =>
      obtain ⟨e, letters, given⟩ := List.exists_cons_of_ne_nil (upperChar_ne_nil c)
      rw [List.flatMap_cons, given] at first
      obtain rfl := Option.some.inj first
      exact isBlank_of_mem_upperChar (trimmed.first c rfl) (given ▸ List.mem_cons_self)
  · intro d last
    rcases List.eq_nil_or_concat cs with rfl | ⟨front, c, rfl⟩
    · cases last
    · rw [List.concat_eq_append] at trimmed last
      rw [List.flatMap_append, List.flatMap_singleton, List.getLast?_append,
        List.getLast?_eq_some_getLast (upperChar_ne_nil c), Option.some_or] at last
      obtain rfl := Option.some.inj last
      exact isBlank_of_mem_upperChar (trimmed.last c List.getLast?_concat) (List.getLast_mem _)

/-- A text that is trimmed first and then written in upper case is trimmed. -/
theorem trim_upper_trim (s : String) : Text.trim (upper (Text.trim s)) = upper (Text.trim s) := by
  have trimmed := (isTrimmed_trimChars s.toList).upper
  rw [Text.trim, Text.upper, String.toList_ofList, Text.trim, String.toList_ofList, trimmed.trimChars_eq]

theorem Filled.upper (filled : Filled s) : Filled (upper s) := by
  obtain ⟨c, mem, plain⟩ := filled
  obtain ⟨d, letter⟩ := List.exists_mem_of_ne_nil _ (upperChar_ne_nil c)
  refine ⟨d, ?_, isBlank_of_mem_upperChar plain letter⟩
  rw [Text.upper, String.toList_ofList]
  exact List.mem_flatMap.mpr ⟨c, mem, letter⟩

/-- What is left of a text in upper case without the blanks at its ends is not blank. -/
theorem filled_upper_trim (some : Text.upper (Text.trim s) ≠ "") :
    Filled (Text.upper (Text.trim s)) := by
  refine (trim_ne_empty_iff.mp fun none ↦ some ?_).trim.upper
  rw [none]
  rfl

end VerbForms.Text
