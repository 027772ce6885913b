import VerbForms.Text.Encoding

/-!
# Texts as UTF-8 bytes

The machine that decodes UTF-8 finds each character again in the bytes that encode it, from one byte to
four. So the bytes of a text decode to the text (`decodeStrict_utf8`).
-/

namespace VerbForms.Text

variable {value more low high tail lead : Nat} {rest : Bytes}

/-- A byte in the range that is expected continues the character that has begun. -/
theorem utf8Chars_continue (small : tail < 64) (least : low ≤ tail + 128) (greatest : tail + 128 ≤ high) :
    utf8Chars (some ⟨value, more + 1, low, high⟩) (UInt8.ofNat (tail + 128) :: rest) =
      utf8Chars (some ⟨value * 64 + tail, more, 0x80, 0xBF⟩) rest := by
  have byte : (tail + 128) % 256 = tail + 128 := Nat.mod_eq_of_lt (by omega)
  simp [utf8Chars, byte, least, greatest]

/-- The last byte of a character finishes it. -/
theorem utf8Chars_finish (small : tail < 64) (least : low ≤ tail + 128) (greatest : tail + 128 ≤ high) :
    utf8Chars (some ⟨value, 0, low, high⟩) (UInt8.ofNat (tail + 128) :: rest) =
      some (Char.ofNat (value * 64 + tail)) :: utf8Chars none rest := by
  have byte : (tail + 128) % 256 = tail + 128 := Nat.mod_eq_of_lt (by omega)
  simp [utf8Chars, byte, least, greatest]

/-- A first byte from which a character begins. -/
theorem utf8Chars_begin {begun : Begun} (byte : lead < 256) (begins : beginUtf8 lead = ([], some begun)) :
    utf8Chars none (UInt8.ofNat lead :: rest) = utf8Chars (some begun) rest := by
  have same : (UInt8.ofNat lead).toNat = lead := by
    rw [UInt8.toNat_ofNat']
    omega
  rw [utf8Chars, same, begins]
  rfl

theorem utf8Chars_two {v : Nat} (least : 0x7F < v) (most : v ≤ 0x7FF) (rest : Bytes) :
    utf8Chars none (UInt8.ofNat (v / 64 % 32 + 192) :: UInt8.ofNat (v % 64 + 128) :: rest) =
      some (Char.ofNat v) :: utf8Chars none rest := by
  have begins : beginUtf8 (v / 64 % 32 + 192) = ([], some ⟨v / 64, 0, 0x80, 0xBF⟩) := by
    have bits : v / 64 % 32 + 192 - 0xC0 = v / 64 := by omega
    rw [beginUtf8, if_neg (by omega), if_neg (by omega), if_pos (by omega), bits]
  have whole : v / 64 * 64 + v % 64 = v := by omega
  rw [utf8Chars_begin (by omega) begins, utf8Chars_finish (by omega) (by omega) (by omega), whole]

theorem utf8Chars_three {v : Nat} (least : 0x7FF < v) (most : v ≤ 0xFFFF)
    (valid : v < 0xD800 ∨ 0xDFFF < v) (rest : Bytes) :
    utf8Chars none (UInt8.ofNat (v / 4096 % 16 + 224) :: UInt8.ofNat (v / 64 % 64 + 128) ::
      UInt8.ofNat (v % 64 + 128) :: rest) = some (Char.ofNat v) :: utf8Chars none rest := by
  -- The range of the second byte leaves out overlong forms and surrogates.
  have begins : beginUtf8 (v / 4096 % 16 + 224) = ([], some ⟨v / 4096, 1,
      if v / 4096 % 16 + 224 = 0xE0 then 0xA0 else 0x80,
      if v / 4096 % 16 + 224 = 0xED then 0x9F else 0xBF⟩) := by
    have bits : v / 4096 % 16 + 224 - 0xE0 = v / 4096 := by omega
    rw [beginUtf8, if_neg (by omega), if_neg (by omega), if_neg (by omega), if_pos (by omega), bits]
  have front : v / 4096 * 64 + v / 64 % 64 = v / 64 := by omega
  have whole : v / 64 * 64 + v % 64 = v := by omega
  rw [utf8Chars_begin (by omega) begins,
    utf8Chars_continue (by omega) (by split <;> omega) (by split <;> omega), front,
    utf8Chars_finish (by omega) (by omega) (by omega), whole]

theorem utf8Chars_four {v : Nat} (least : 0xFFFF < v) (most : v < 0x110000) (rest : Bytes) :
    utf8Chars none (UInt8.ofNat (v / 262144 % 8 + 240) :: UInt8.ofNat (v / 4096 % 64 + 128) ::
      UInt8.ofNat (v / 64 % 64 + 128) :: UInt8.ofNat (v % 64 + 128) :: rest) =
      some (Char.ofNat v) :: utf8Chars none rest := by
  -- The range of the second byte leaves out overlong forms and what is above the last character.
  have begins : beginUtf8 (v / 262144 % 8 + 240) = ([], some ⟨v / 262144, 2,
      if v / 262144 % 8 + 240 = 0xF0 then 0x90 else 0x80,
      if v / 262144 % 8 + 240 = 0xF4 then 0x8F else 0xBF⟩) := by
    have bits : v / 262144 % 8 + 240 - 0xF0 = v / 262144 := by omega
    rw [beginUtf8, if_neg (by omega), if_neg (by omega), if_neg (by omega), if_neg (by omega),
      if_pos (by omega), bits]
  have front : v / 262144 * 64 + v / 4096 % 64 = v / 4096 := by omega
  have middle : v / 4096 * 64 + v / 64 % 64 = v / 64 := by omega
  have whole : v / 64 * 64 + v % 64 = v := by omega
  rw [utf8Chars_begin (by omega) begins,
    utf8Chars_continue (by omega) (by split <;> omega) (by split <;> omega), front,
    utf8Chars_continue (by omega) (by omega) (by omega), middle,
    utf8Chars_finish (by omega) (by omega) (by omega), whole]

/-- A character is found again in its bytes, whatever follows them. -/
theorem utf8Chars_encodeChar (c : Char) (rest : Bytes) :
    utf8Chars none (String.utf8EncodeChar c ++ rest) = some c :: utf8Chars none rest := by
  have found : Char.ofNat c.val.toNat = c := Char.ofNat_toNat c
  have valid : c.val.toNat.isValidChar := c.valid
  rw [Nat.isValidChar] at valid
  unfold String.utf8EncodeChar
  generalize c.val.toNat = v at found valid
  obtain rfl := found
  dsimp only
  split
  · next one =>
    have byte : (UInt8.ofNat v).toNat = v := by
      rw [UInt8.toNat_ofNat']
      omega
    rw [List.cons_append, List.nil_append, utf8Chars, byte, beginUtf8, if_pos (by omega)]
    rfl
  · split
    · next two => exact utf8Chars_two (by omega) two rest
    · split
      · next three => exact utf8Chars_three (by omega) three (by omega) rest
      · exact utf8Chars_four (by omega) (by omega) rest

theorem utf8Chars_utf8 (s : String) : utf8Chars none (utf8 s) = s.toList.map some := by
  rw [utf8]
  induction s.toList with
  | nil => rfl
  | cons c cs ih => rw [List.flatMap_cons, utf8Chars_encodeChar, ih, List.map_cons]

/-- **The UTF-8 bytes of a text decode to the text.** -/
theorem decodeStrict_utf8 (s : String) : Encoding.utf8.decodeStrict (utf8 s) = some s.toList := by
  rw [Encoding.decodeStrict, Encoding.chars, utf8Chars_utf8]
  induction s.toList with
  | nil => rfl
  | cons c cs ih =>
    rw [List.map_cons, List.mapM_cons, ih]
    rfl

end VerbForms.Text
