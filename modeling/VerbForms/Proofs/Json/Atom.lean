import VerbForms.Json.Print
import VerbForms.Json.Token
import Mathlib.Data.List.TakeWhile

/-!
# Numbers and words

A number or a word ends before a separator, a comma or a closing bracket: what follows there does not
change how it is scanned (`scanAtom_append`). A printed integer is scanned as that integer.
-/

namespace VerbForms.Json

variable {c : Char} {cs rest : List Char} {negative : Bool} {token : Token} {length : Nat}

/-- Characters before which numbers and words end. -/
def boundaries : List Char := [' ', '\t', '\n', '\r', ',', ']', '}']

/-- The text ends or goes on with a character before which numbers and words end. -/
def Bounded (rest : List Char) : Prop := ∀ c ∈ rest.head?, c ∈ boundaries

theorem bounded_nil : Bounded [] := fun _ h ↦ by cases h

theorem bounded_cons (h : c ∈ boundaries) (rest : List Char) : Bounded (c :: rest) :=
  fun _ same ↦ Option.some.inj same ▸ h

/-- The character can begin a number or a word: it is no token of its own and no quote. -/
def StartsAtom (c : Char) : Prop := c ∉ boundaries ++ ['[', '{', ':', '"']

instance (c : Char) : Decidable (StartsAtom c) :=
  inferInstanceAs (Decidable (c ∉ boundaries ++ ['[', '{', ':', '"']))

theorem startsAtom_of_isDigit (h : c.isDigit = true) : StartsAtom c := by
  have noDigit : (boundaries ++ ['[', '{', ':', '"']).all (fun c ↦ !c.isDigit) = true := rfl
  intro mem
  have other := List.all_eq_true.mp noDigit c mem
  rw [h] at other
  cases other

/-! ### What follows does not matter -/

private theorem not_digit_of_boundary (h : c ∈ boundaries) : c.isDigit = false := by
  have noDigit : boundaries.all (fun c ↦ !c.isDigit) = true := rfl
  simpa using List.all_eq_true.mp noDigit c h

theorem Bounded.takeWhile_append (h : Bounded rest) (cs : List Char) :
    (cs ++ rest).takeWhile Char.isDigit = cs.takeWhile Char.isDigit := by
  induction cs with
  | nil =>
    cases rest with
    | nil => rfl
    | cons c rest =>
      have noDigit := not_digit_of_boundary (h c rfl)
      rw [List.nil_append, List.takeWhile_cons, noDigit]
      rfl
  | cons c cs ih => rw [List.cons_append, List.takeWhile_cons, List.takeWhile_cons, ih]

theorem Bounded.dropWhile_append (h : Bounded rest) (cs : List Char) :
    (cs ++ rest).dropWhile Char.isDigit = cs.dropWhile Char.isDigit ++ rest := by
  induction cs with
  | nil =>
    cases rest with
    | nil => rfl
    | cons c rest =>
      have noDigit := not_digit_of_boundary (h c rfl)
      rw [List.nil_append, List.dropWhile_cons, noDigit]
      rfl
  | cons c cs ih =>
    rw [List.cons_append, List.dropWhile_cons, List.dropWhile_cons, ih]
    split <;> rfl

private theorem length_digits_le (cs : List Char) :
    (cs.takeWhile Char.isDigit).length ≤ cs.length :=
  (List.takeWhile_prefix Char.isDigit).length_le

theorem scanWhole_append (h : Bounded rest) (cs : List Char) :
    scanWhole (cs ++ rest) = scanWhole cs := by
  have digits := h.takeWhile_append cs
  cases cs with
  | nil =>
    cases rest with
    | nil => rfl
    | cons c rest =>
      have noZero : c ≠ '0' := fun same ↦ absurd (h c rfl) (same ▸ by decide)
      exact (if_neg noZero).trans digits
  | cons c cs => rw [List.cons_append, scanWhole, scanWhole, ← List.cons_append, digits]

theorem scanFraction_point (cs : List Char) :
    scanFraction ('.' :: cs) =
      if (cs.takeWhile Char.isDigit).isEmpty then ([], '.' :: cs)
      else (cs.takeWhile Char.isDigit, cs.dropWhile Char.isDigit) := rfl

theorem scanFraction_other (noPoint : ∀ tail, cs ≠ '.' :: tail) :
    scanFraction cs = ([], cs) := by
  unfold scanFraction
  split
  · next tail => exact absurd rfl (noPoint tail)
  · rfl

theorem scanFraction_append (h : Bounded rest) (cs : List Char) :
    scanFraction (cs ++ rest) = ((scanFraction cs).1, (scanFraction cs).2 ++ rest) := by
  by_cases point : ∃ tail, cs = '.' :: tail
  · obtain ⟨tail, rfl⟩ := point
    rw [List.cons_append, scanFraction_point, scanFraction_point, h.takeWhile_append,
      h.dropWhile_append]
    split <;> rfl
  · have noPoint : ∀ tail, cs ≠ '.' :: tail := fun tail same ↦ point ⟨tail, same⟩
    rw [scanFraction_other noPoint]
    apply scanFraction_other
    intro tail same
    cases cs with
    | nil =>
      rw [List.nil_append] at same
      exact absurd (h '.' (same ▸ rfl)) (by decide)
    | cons c cs => exact noPoint cs (congrArg (· :: cs) (List.cons.inj same).1)

/-- The sign of an exponent: whether it is a minus, and the number of its characters. -/
def exponentSign : List Char → Bool × Nat
  | '-' :: _ => (true, 1)
  | '+' :: _ => (false, 1)
  | _ => (false, 0)

private theorem exponentSign_other (noMinus : ∀ tail, cs ≠ '-' :: tail)
    (noPlus : ∀ tail, cs ≠ '+' :: tail) : exponentSign cs = (false, 0) := by
  unfold exponentSign
  split
  · next tail => exact absurd rfl (noMinus tail)
  · next tail => exact absurd rfl (noPlus tail)
  · rfl

private theorem exponentSign_append (h : Bounded rest) (cs : List Char) :
    exponentSign (cs ++ rest) = exponentSign cs := by
  cases cs with
  | nil =>
    apply exponentSign_other
    · intro tail same
      rw [List.nil_append] at same
      exact absurd (h '-' (same ▸ rfl)) (by decide)
    · intro tail same
      rw [List.nil_append] at same
      exact absurd (h '+' (same ▸ rfl)) (by decide)
  | cons c cs =>
    by_cases minus : c = '-'
    · rw [minus]
      rfl
    by_cases plus : c = '+'
    · rw [plus]
      rfl
    rw [exponentSign_other, exponentSign_other]
    all_goals
      intro tail same
      simp_all

private theorem exponentSign_le (cs : List Char) : (exponentSign cs).2 ≤ cs.length := by
  unfold exponentSign
  split
  · exact Nat.le_add_left 1 _
  · exact Nat.le_add_left 1 _
  · exact Nat.zero_le _

theorem scanExponent_cons (c : Char) (cs : List Char) :
    scanExponent (c :: cs) =
      if c = 'e' ∨ c = 'E' then
        let digits := (cs.drop (exponentSign cs).2).takeWhile Char.isDigit
        if digits.isEmpty then none
        else
          let n : Int := Text.naturalOf digits
          some ⟨if (exponentSign cs).1 then -n else n, 1 + (exponentSign cs).2 + digits.length⟩
      else none := rfl

theorem scanExponent_append (h : Bounded rest) (cs : List Char) :
    scanExponent (cs ++ rest) = scanExponent cs := by
  cases cs with
  | nil =>
    cases rest with
    | nil => rfl
    | cons c rest =>
      have noExponent : ¬ (c = 'e' ∨ c = 'E') := by
        rintro (rfl | rfl)
        · exact absurd (h 'e' rfl) (by decide)
        · exact absurd (h 'E' rfl) (by decide)
      rw [List.nil_append, scanExponent_cons, if_neg noExponent]
      rfl
  | cons c cs =>
    rw [List.cons_append, scanExponent_cons, scanExponent_cons, exponentSign_append h,
      List.drop_append_of_le_length (exponentSign_le cs), h.takeWhile_append]

/-- An exponent is no longer than the text. -/
theorem scanExponent_le {e : Exponent} (found : scanExponent cs = some e) :
    e.length ≤ cs.length := by
  cases cs with
  | nil => cases found
  | cons c cs =>
    rw [scanExponent_cons] at found
    split at found
    · simp only at found
      split at found
      · cases found
      · cases found
        have digits := length_digits_le (cs.drop (exponentSign cs).2)
        have sign := exponentSign_le cs
        rw [List.length_drop] at digits
        simp only [List.length_cons]
        omega
    · cases found

theorem scanWhole_le (cs : List Char) : (scanWhole cs).length ≤ cs.length := by
  cases cs with
  | nil => exact Nat.le_refl 0
  | cons c cs =>
    rw [scanWhole]
    split
    · exact Nat.le_add_left 1 cs.length
    · exact length_digits_le (c :: cs)

/-- A point, the digits behind it and the rest make up the text. -/
theorem scanFraction_length (cs : List Char) :
    (if (scanFraction cs).1.isEmpty then 0 else 1) + (scanFraction cs).1.length +
      (scanFraction cs).2.length = cs.length := by
  by_cases point : ∃ tail, cs = '.' :: tail
  · obtain ⟨tail, rfl⟩ := point
    rw [scanFraction_point]
    split
    · simp
    · next digits =>
      have parts : tail.takeWhile Char.isDigit ++ tail.dropWhile Char.isDigit = tail :=
        List.takeWhile_append_dropWhile
      have lengths := congrArg List.length parts
      rw [List.length_append] at lengths
      simp only [List.length_cons]
      omega
  · have noPoint : ∀ tail, cs ≠ '.' :: tail := fun tail same ↦ point ⟨tail, same⟩
    rw [scanFraction_other noPoint]
    simp

/-- The token of the digits before the point, the digits behind it and an exponent. -/
def numberToken (negative : Bool) (whole fraction : List Char)
    (exponent : Option Exponent) : Token × Nat :=
  match fraction, exponent with
  | [], none =>
    if mostIntegerDigits < whole.length then (.broken .tooManyDigits, whole.length)
    else
      let n : Int := Text.naturalOf whole
      (.atom (.int (if negative then -n else n)), whole.length)
  | fraction, exponent =>
    let scale : Int := (exponent.map (·.value)).getD 0 - fraction.length
    let points := if fraction.isEmpty then 0 else 1
    (.atom (.real (Double.ofDecimal negative (Text.naturalOf (whole ++ fraction)) scale)),
      whole.length + points + fraction.length + (exponent.map (·.length)).getD 0)

theorem scanNumber_eq (negative : Bool) (cs : List Char) :
    scanNumber negative cs =
      if (scanWhole cs).isEmpty then none
      else
        let parts := scanFraction (cs.drop (scanWhole cs).length)
        some (numberToken negative (scanWhole cs) parts.1 (scanExponent parts.2)) := by
  unfold scanNumber numberToken
  simp only
  split
  · rfl
  · split <;> split <;> simp_all

theorem scanNumber_append (h : Bounded rest) (negative : Bool) (cs : List Char) :
    scanNumber negative (cs ++ rest) = scanNumber negative cs := by
  rw [scanNumber_eq, scanNumber_eq, scanWhole_append h,
    List.drop_append_of_le_length (scanWhole_le cs), scanFraction_append h]
  simp only [scanExponent_append h]

/-- A number is no longer than the text, and it is a value or has too many digits. -/
theorem scanNumber_le (found : scanNumber negative cs = some (token, length)) :
    length ≤ cs.length ∧ (token = .broken .tooManyDigits ∨ ∃ value, token = .atom value) := by
  have whole := scanWhole_le cs
  have fraction := scanFraction_length (cs.drop (scanWhole cs).length)
  rw [List.length_drop] at fraction
  rw [scanNumber_eq] at found
  split at found
  · cases found
  · have found := Option.some.inj found
    unfold numberToken at found
    split at found
    · next noFraction noExponent =>
      split at found
      · cases found
        exact ⟨whole, .inl rfl⟩
      · cases found
        exact ⟨whole, .inr ⟨_, rfl⟩⟩
    · cases found
      refine ⟨?_, .inr ⟨_, rfl⟩⟩
      cases isExponent : scanExponent (scanFraction (cs.drop (scanWhole cs).length)).2 with
      | none =>
        simp only [Option.map_none, Option.getD_none]
        omega
      | some e =>
        have exponent := scanExponent_le isExponent
        simp only [Option.map_some, Option.getD_some]
        omega

/-- Where a word has no boundary in it, it begins a text or not before the boundary. -/
theorem isPrefixOf_append (h : Bounded rest) {word : List Char} (cs : List Char)
    (inside : ∀ c ∈ word, c ∉ boundaries) :
    word.isPrefixOf (cs ++ rest) = word.isPrefixOf cs := by
  induction word generalizing cs with
  | nil => rw [List.isPrefixOf_nil_left, List.isPrefixOf_nil_left]
  | cons w word ih =>
    obtain ⟨first, others⟩ := List.forall_mem_cons.mp inside
    cases cs with
    | nil =>
      cases rest with
      | nil => rfl
      | cons c rest =>
        have different : w ≠ c := fun same ↦ first (same ▸ h c rfl)
        have unlike : (w == c && word.isPrefixOf rest) = false := by
          rw [beq_false_of_ne different, Bool.false_and]
        exact unlike
    | cons c cs => rw [List.cons_append, List.isPrefixOf, List.isPrefixOf, ih cs others]

private theorem words_inside : ∀ entry ∈ words, ∀ c ∈ entry.1, c ∉ boundaries := by
  have inside : words.all (fun entry ↦ entry.1.all fun c ↦ !boundaries.contains c) = true := rfl
  intro entry isWord c mem
  simpa using List.all_eq_true.mp (List.all_eq_true.mp inside entry isWord) c mem

theorem scanWord_append (h : Bounded rest) (cs : List Char) :
    scanWord (cs ++ rest) = scanWord cs := by
  have inside := words_inside
  unfold scanWord
  generalize words = table at inside ⊢
  induction table with
  | nil => rfl
  | cons entry table ih =>
    obtain ⟨first, others⟩ := List.forall_mem_cons.mp inside
    rw [List.findSome?_cons, List.findSome?_cons, ih others]
    simp only [isPrefixOf_append h cs first]

theorem scanWord_le (found : scanWord cs = some (token, length)) :
    length ≤ cs.length ∧ ∃ value, token = .atom value := by
  obtain ⟨entry, _, same⟩ := List.exists_of_findSome?_eq_some found
  simp only at same
  split at same
  · next begins =>
    cases same
    exact ⟨(List.isPrefixOf_iff_prefix.mp begins).length_le, _, rfl⟩
  · cases same

/-- What follows a number or a word does not change it. -/
theorem scanAtom_append (h : Bounded rest) (c : Char) (cs : List Char) :
    scanAtom c (cs ++ rest) = scanAtom c cs := by
  rw [scanAtom, scanAtom, ← List.cons_append, scanWord_append h, scanNumber_append h,
    scanNumber_append h]

theorem scanAtom_le (found : scanAtom c cs = some (token, length)) :
    length ≤ cs.length + 1 ∧ (token = .broken .tooManyDigits ∨ ∃ value, token = .atom value) := by
  rw [scanAtom, Option.or_eq_some_iff] at found
  rcases found with isWord | ⟨_, isNumber⟩
  · obtain ⟨within, isAtom⟩ := scanWord_le isWord
    exact ⟨within, .inr isAtom⟩
  · split at isNumber
    · obtain ⟨⟨t, n⟩, number, same⟩ := Option.map_eq_some_iff.mp isNumber
      cases same
      exact (scanNumber_le number).imp_left (Nat.add_le_add_right · 1)
    · exact scanNumber_le isNumber

/-! ### Integers -/

theorem isDigit_of_mem_naturalText {n : Nat} (h : c ∈ naturalText n) : c.isDigit = true :=
  Nat.isDigit_of_mem_toDigits (by decide) (by decide) h

theorem naturalOf_naturalText (n : Nat) : Text.naturalOf (naturalText n) = n := by
  rw [Text.naturalOf, naturalText, ← Nat.ofDigitChars_eq_foldl, Nat.ofDigitChars_ten_toDigits]

theorem naturalText_ne_nil (n : Nat) : naturalText n ≠ [] := Nat.toDigits_ne_nil

private theorem digitChar_ne_zero : ∀ n < 10, n.digitChar = '0' → n = 0 := by
  decide

/-- Positive numbers do not begin with a zero. -/
theorem naturalText_ne_zero_cons {n : Nat} (positive : 0 < n) (cs : List Char) :
    naturalText n ≠ '0' :: cs := by
  induction n using Nat.strongRecOn generalizing cs with
  | ind n ih =>
    intro same
    rw [naturalText, Nat.toDigits_eq_if (by decide)] at same
    split at same
    · next small =>
      have zero := digitChar_ne_zero n small (List.cons.inj same).1
      omega
    -- The first digit is that of all digits but the last one.
    · next large =>
      have less : n / 10 < n := by omega
      cases parts : Nat.toDigits 10 (n / 10) with
      | nil => exact naturalText_ne_nil (n / 10) parts
      | cons c digits =>
        rw [parts, List.cons_append] at same
        have first := (List.cons.inj same).1
        exact ih (n / 10) less (by omega) digits (first ▸ parts)

theorem scanWhole_naturalText (n : Nat) : scanWhole (naturalText n) = naturalText n := by
  have digits : (naturalText n).takeWhile Char.isDigit = naturalText n :=
    List.takeWhile_eq_self_iff.mpr fun c ↦ isDigit_of_mem_naturalText
  rcases Nat.eq_zero_or_pos n with rfl | positive
  · rfl
  · cases text : naturalText n with
    | nil => rfl
    | cons c cs =>
      have noZero : c ≠ '0' := by
        rintro rfl
        exact naturalText_ne_zero_cons positive cs text
      rw [scanWhole, if_neg noZero, ← text, digits]

theorem scanNumber_naturalText (negative : Bool) {n : Nat}
    (digits : (naturalText n).length ≤ mostIntegerDigits) :
    scanNumber negative (naturalText n) =
      some (.atom (.int (if negative then -(n : Int) else n)), (naturalText n).length) := by
  have noExponent : scanExponent [] = none := rfl
  have noFraction : scanFraction [] = ([], []) := rfl
  have some' : (naturalText n).isEmpty = false := by
    rw [List.isEmpty_eq_false_iff]
    exact naturalText_ne_nil n
  rw [scanNumber_eq, scanWhole_naturalText, List.drop_length, noFraction, some']
  simp only [noExponent, numberToken, if_neg (Nat.not_lt.mpr digits), naturalOf_naturalText]
  rfl

theorem scanWord_of_isDigit (h : c.isDigit = true) (cs : List Char) :
    scanWord (c :: cs) = none := by
  have noDigit : words.all (fun entry ↦ entry.1.head?.all fun w ↦ !w.isDigit) = true := rfl
  have inside : ∀ entry ∈ words, entry.1 ≠ [] := by decide
  apply List.findSome?_eq_none_iff.mpr
  rintro ⟨word, value⟩ isWord
  cases word with
  | nil => exact absurd rfl (inside _ isWord)
  | cons w word =>
    have different : w ≠ c := by
      rintro rfl
      have other := List.all_eq_true.mp noDigit _ isWord
      simp [h] at other
    have unlike : (w :: word).isPrefixOf (c :: cs) = false := by
      rw [List.isPrefixOf, beq_false_of_ne different, Bool.false_and]
    simp [unlike]

theorem scanWord_minus_of_isDigit (h : c.isDigit = true) (cs : List Char) :
    scanWord ('-' :: c :: cs) = none := by
  have noInfinity : 'I' ≠ c := by
    rintro rfl
    cases h
  simp [scanWord, words, noInfinity]

/-- A printed integer is scanned as that integer. -/
theorem exists_scanAtom_integerText {n : Int}
    (digits : (naturalText n.natAbs).length ≤ mostIntegerDigits) :
    ∃ c cs, integerText n = c :: cs ∧ StartsAtom c ∧
      scanAtom c cs = some (.atom (.int n), cs.length + 1) := by
  obtain ⟨d, ds, text⟩ := List.exists_cons_of_ne_nil (naturalText_ne_nil n.natAbs)
  have isDigit : d.isDigit = true :=
    isDigit_of_mem_naturalText (text.symm ▸ List.mem_cons_self)
  have number (negative : Bool) := scanNumber_naturalText negative digits
  rw [text] at number
  cases n with
  | ofNat n =>
    have noMinus : d ≠ '-' := by
      rintro rfl
      cases isDigit
    refine ⟨d, ds, text, startsAtom_of_isDigit isDigit, ?_⟩
    rw [scanAtom, scanWord_of_isDigit isDigit, Option.none_or, if_neg noMinus, number]
    rfl
  | negSucc n =>
    refine ⟨'-', d :: ds, congrArg _ text, by decide, ?_⟩
    rw [scanAtom, scanWord_minus_of_isDigit isDigit, Option.none_or, if_pos rfl, number]
    rfl

/-! ### Doubles -/

/-- The digits that are kept are digits, and there is at least one. -/
theorem exists_dropTrailingZeros {digits : List Char} (h : ∀ c ∈ digits, c.isDigit = true) :
    ∃ d ds, dropTrailingZeros digits = d :: ds ∧ d.isDigit = true := by
  unfold dropTrailingZeros
  split
  · exact ⟨'0', [], rfl, rfl⟩
  · next noDigit =>
    cases kept : (digits.reverse.dropWhile (· == '0')).reverse with
    | nil => exact absurd kept noDigit
    | cons d ds =>
      refine ⟨d, ds, rfl, h d ?_⟩
      have mem : d ∈ (digits.reverse.dropWhile (· == '0')).reverse := kept ▸ List.mem_cons_self
      exact List.mem_reverse.mp ((List.dropWhile_sublist _).subset (List.mem_reverse.mp mem))

theorem exists_digitsText (form : NumberForm) {d : Char} (isDigit : d.isDigit = true)
    (ds : List Char) (leading : Int) :
    ∃ c cs, digitsText form (d :: ds) leading = c :: cs ∧ c.isDigit = true := by
  unfold digitsText
  split
  · split
    · exact ⟨'0', _, rfl, rfl⟩
    · exact ⟨d, _, rfl, isDigit⟩
  · cases ds with
    | nil => exact ⟨d, _, rfl, isDigit⟩
    | cons e ds => exact ⟨d, _, rfl, isDigit⟩

/-- The text of a finite double begins with a digit or with a sign. -/
theorem exists_doubleText (form : NumberForm) (negative : Bool) (m : Nat) (e : Int) :
    ∃ c cs, doubleText form (.finite negative m e) = c :: cs ∧ StartsAtom c := by
  cases negative with
  | true =>
    rw [doubleText]
    split
    · exact ⟨'-', _, rfl, by decide⟩
    · exact ⟨'-', _, rfl, by decide⟩
  | false =>
    rw [doubleText]
    split
    · exact ⟨'0', _, rfl, by decide⟩
    · have digits : ∀ c ∈ naturalText (Decimal.shortest m e).digits, c.isDigit = true :=
        fun c ↦ isDigit_of_mem_naturalText
      obtain ⟨d, ds, kept, isDigit⟩ := exists_dropTrailingZeros digits
      simp only [kept]
      obtain ⟨c, cs, text, isDigit⟩ := exists_digitsText form isDigit ds
        ((Decimal.shortest m e).scale + (naturalText (Decimal.shortest m e).digits).length - 1)
      exact ⟨c, cs, text, startsAtom_of_isDigit isDigit⟩

end VerbForms.Json
