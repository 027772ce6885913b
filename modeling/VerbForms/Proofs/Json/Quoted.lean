import VerbForms.Json.Print
import VerbForms.Json.Token
import Mathlib.Data.List.Basic

/-!
# Quoted texts

Scanning a quoted text gives back the characters that were printed: each character is printed as one
or two pieces that scanning takes apart in the same way, and pieces of 16-bit units join to the
character they came from, since no character is a surrogate.
-/

namespace VerbForms.Json

variable {c e : Char} {more : List Char} {done : List Piece} {opening position : Nat}

/-! ### Single pieces -/

theorem scanText_plain (noQuote : c ≠ '"') (noEscape : c ≠ '\\') (printable : 32 ≤ c.toNat) :
    scanText opening position done (c :: more) =
      scanText opening (position + 1) (.char c :: done) more := by
  rw [scanText.eq_def]
  simp only [if_neg noQuote, if_neg noEscape, if_neg (Nat.not_lt.mpr printable)]

theorem scanText_short (noUnit : e ≠ 'u') (isShort : shortEscape? e = some c) :
    scanText opening position done ('\\' :: e :: more) =
      scanText opening (position + 2) (.char c :: done) more := by
  rw [scanText.eq_def]
  simp only [if_neg (show ('\\' : Char) ≠ '"' by decide), if_true, if_neg noUnit, isShort]

theorem hexValue?_hexDigit : ∀ n < 16, hexValue? (hexDigit n) = some n := by
  decide

/-- The four digits of a unit stand for the unit. -/
theorem hexUnit?_digits {unit : Nat} (small : unit < 0x10000) :
    hexUnit? (hexDigit (unit / 4096 % 16)) (hexDigit (unit / 256 % 16)) (hexDigit (unit / 16 % 16))
      (hexDigit (unit % 16)) = some unit := by
  have digit (n : Nat) : hexValue? (hexDigit (n % 16)) = some (n % 16) :=
    hexValue?_hexDigit (n % 16) (Nat.mod_lt n (by decide))
  have sum : ((unit / 4096 % 16 * 16 + unit / 256 % 16) * 16 + unit / 16 % 16) * 16 + unit % 16 =
      unit := by
    omega
  rw [hexUnit?, digit, digit, digit, digit]
  exact congrArg some sum

theorem scanText_unit {unit : Nat} (small : unit < 0x10000) (goesOn : more ≠ []) :
    scanText opening position done (unitEscape unit ++ more) =
      scanText opening (position + 6) (.unit unit :: done) more := by
  rw [unitEscape]
  simp only [List.cons_append, List.nil_append]
  rw [scanText.eq_def]
  simp only [if_neg (show ('\\' : Char) ≠ '"' by decide), if_true, hexUnit?_digits small]
  rw [if_neg (by simpa using goesOn)]

/-! ### Characters -/

/-- The pieces as which a character is printed. -/
def charPieces (c : Char) : List Piece :=
  if 32 ≤ c.toNat ∧ c.toNat < 127 ∨ c ∈ ['\n', '\r', '\t', '\x08', '\x0c'] then [.char c]
  else (Text.units16 c).map .unit

private theorem isValidChar_toNat (c : Char) :
    c.toNat < 0xD800 ∨ 0xDFFF < c.toNat ∧ c.toNat < 0x110000 := c.valid

theorem units16_lt (c : Char) : ∀ unit ∈ Text.units16 c, unit < 0x10000 := by
  have valid := isValidChar_toNat c
  intro unit h
  rw [Text.units16] at h
  split at h
  · next small => exact (List.mem_singleton.mp h) ▸ small
  · have pair := List.mem_pair.mp h
    omega

theorem scanText_units {units : List Nat} (small : ∀ unit ∈ units, unit < 0x10000)
    (goesOn : more ≠ []) :
    scanText opening position done (units.flatMap unitEscape ++ more) =
      scanText opening (position + (units.flatMap unitEscape).length)
        ((units.map .unit).reverse ++ done) more := by
  induction units generalizing position done with
  | nil => rfl
  | cons unit rest ih =>
    obtain ⟨first, others⟩ := List.forall_mem_cons.mp small
    have goesOn' : rest.flatMap unitEscape ++ more ≠ [] := by
      intro h
      exact goesOn (List.append_eq_nil_iff.mp h).2
    have length : (unitEscape unit).length = 6 := rfl
    rw [List.flatMap_cons, List.append_assoc, scanText_unit first goesOn', ih others,
      List.length_append, length, Nat.add_assoc, List.map_cons, List.reverse_cons,
      List.append_assoc, List.cons_append, List.nil_append]

/-- A printed character is scanned as its pieces. -/
theorem scanText_charText (c : Char) (goesOn : more ≠ []) :
    scanText opening position done (charText c ++ more) =
      scanText opening (position + (charText c).length) ((charPieces c).reverse ++ done) more := by
  by_cases short : c ∈ ['"', '\\', '\n', '\r', '\t', '\x08', '\x0c']
  · simp only [List.mem_cons, List.not_mem_nil, or_false] at short
    rcases short with rfl | rfl | rfl | rfl | rfl | rfl | rfl <;>
      exact scanText_short (by decide) rfl
  · simp only [List.mem_cons, List.not_mem_nil, or_false, not_or] at short
    obtain ⟨noQuote, noEscape, noLine, noReturn, noTab, noBack, noFeed⟩ := short
    rw [charText, if_neg noQuote, if_neg noEscape, if_neg noLine, if_neg noReturn, if_neg noTab,
      if_neg noBack, if_neg noFeed, charPieces]
    by_cases printable : 32 ≤ c.toNat ∧ c.toNat < 127
    · rw [if_pos printable, if_pos (.inl printable)]
      exact scanText_plain noQuote noEscape printable.1
    · have noPiece : c ∉ ['\n', '\r', '\t', '\x08', '\x0c'] := by
        simp [noLine, noReturn, noTab, noBack, noFeed]
      rw [if_neg printable, if_neg (not_or.mpr ⟨printable, noPiece⟩)]
      exact scanText_units (units16_lt c) goesOn

/-- A printed text is scanned up to its closing quote. -/
theorem scanText_quoted (opening position : Nat) (done : List Piece) (s rest : List Char) :
    scanText opening position done (s.flatMap charText ++ '"' :: rest) =
      .ok (done.reverse ++ s.flatMap charPieces, position + (s.flatMap charText).length + 1) := by
  induction s generalizing position done with
  | nil =>
    rw [List.flatMap_nil, List.nil_append, scanText.eq_def]
    simp
  | cons c s ih =>
    have goesOn : s.flatMap charText ++ '"' :: rest ≠ [] := by
      intro h
      cases (List.append_eq_nil_iff.mp h).2
    rw [List.flatMap_cons, List.append_assoc, scanText_charText c goesOn, ih, List.flatMap_cons,
      List.length_append]
    simp [Nat.add_assoc]

/-! ### Joining -/

/-- The pieces of a character join to the character. -/
theorem joinPieces_charPieces (c : Char) (rest : List Piece) :
    joinPieces (charPieces c ++ rest) = c :: joinPieces rest := by
  have valid := isValidChar_toNat c
  unfold charPieces
  split
  · rfl
  · unfold Text.units16
    split
    · next small =>
      -- A character below `2 ^ 16` is no surrogate, so it is not joined with what follows.
      have noLeading : Text.isLeadingUnit c.toNat = false := by
        simp [Text.isLeadingUnit]
        omega
      have noTrailing : Text.isTrailingUnit c.toNat = false := by
        simp [Text.isTrailingUnit]
        omega
      have same : Text.unitChar c.toNat = c := by
        simp [Text.unitChar, noLeading, noTrailing]
      cases rest with
      | nil => simp [joinPieces, same]
      | cons piece rest =>
        cases piece with
        | char d => simp [joinPieces, same]
        | unit n => simp [joinPieces, noLeading, same]
    · next large =>
      have leading : Text.isLeadingUnit (0xD800 + (c.toNat - 0x10000) / 0x400) = true := by
        simp [Text.isLeadingUnit]
        omega
      have trailing : Text.isTrailingUnit (0xDC00 + (c.toNat - 0x10000) % 0x400) = true := by
        simp [Text.isTrailingUnit]
        omega
      have same : Text.pairChar (0xD800 + (c.toNat - 0x10000) / 0x400)
          (0xDC00 + (c.toNat - 0x10000) % 0x400) = c := by
        have sum : 0x10000 + (0xD800 + (c.toNat - 0x10000) / 0x400 - 0xD800) * 0x400 +
            (0xDC00 + (c.toNat - 0x10000) % 0x400 - 0xDC00) = c.toNat := by
          omega
        rw [Text.pairChar, sum, Char.ofNat_toNat]
      simp only [List.map_cons, List.map_nil, List.cons_append, List.nil_append, joinPieces,
        leading, trailing, same, Bool.and_self, if_true]

theorem joinPieces_flatMap (s : List Char) : joinPieces (s.flatMap charPieces) = s := by
  induction s with
  | nil => rfl
  | cons c s ih => rw [List.flatMap_cons, joinPieces_charPieces, ih]

end VerbForms.Json
