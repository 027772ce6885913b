import VerbForms.Text.Units

/-!
# Bytes and texts

Decoding of bytes. UTF-8 is decoded by a machine that keeps the range in which the next byte must lie;
each longest part that can begin no character counts as one fault. `decodeReplacing` puts U+FFFD for each
fault, `decodeStrict` refuses bytes with a fault.
-/

namespace VerbForms.Text

/-- A sequence of bytes. -/
abbrev Bytes := List UInt8

/-- The UTF-8 bytes of a text. -/
def utf8 (s : String) : Bytes := s.toList.flatMap String.utf8EncodeChar

/-- A UTF-8 character of which some bytes are still to come. -/
structure Begun where
  /-- The bits read so far. -/
  value : Nat
  /-- Number of bytes that follow the next one. -/
  more : Nat
  /-- Least and greatest value of the next byte. -/
  low : Nat
  high : Nat

/-- What a byte at the start of a character gives: a finished character or a fault, or a character that
has begun. -/
def beginUtf8 (byte : Nat) : List (Option Char) × Option Begun :=
  if byte < 0x80 then ([some (Char.ofNat byte)], none)
  else if byte < 0xC2 then ([none], none)
  else if byte < 0xE0 then ([], some ⟨byte - 0xC0, 0, 0x80, 0xBF⟩)
  else if byte < 0xF0 then
    ([], some ⟨byte - 0xE0, 1, if byte = 0xE0 then 0xA0 else 0x80, if byte = 0xED then 0x9F else 0xBF⟩)
  else if byte < 0xF5 then
    ([], some ⟨byte - 0xF0, 2, if byte = 0xF0 then 0x90 else 0x80, if byte = 0xF4 then 0x8F else 0xBF⟩)
  else ([none], none)

/-- The characters of UTF-8 bytes, with `none` for each fault. -/
def utf8Chars : Option Begun → Bytes → List (Option Char)
  | none, [] => []
  | some _, [] => [none]
  | none, byte :: rest =>
    let (out, begun) := beginUtf8 byte.toNat
    out ++ utf8Chars begun rest
  | some b, byte :: rest =>
    if b.low ≤ byte.toNat ∧ byte.toNat ≤ b.high then
      let value := b.value * 64 + (byte.toNat - 0x80)
      match b.more with
      | 0 => some (Char.ofNat value) :: utf8Chars none rest
      | more + 1 => utf8Chars (some ⟨value, more, 0x80, 0xBF⟩) rest
    else
      let (out, begun) := beginUtf8 byte.toNat
      none :: (out ++ utf8Chars begun rest)

/-- The order of the bytes in a unit. -/
inductive ByteOrder where
  | big
  | little
  deriving DecidableEq, Repr

/-- The number that bytes stand for in an order. -/
def ByteOrder.number (order : ByteOrder) (bytes : Bytes) : Nat :=
  let ordered := match order with
    | .big => bytes
    | .little => bytes.reverse
  ordered.foldl (fun n byte => n * 256 + byte.toNat) 0

/-- The characters of 16-bit units; a surrogate without its partner is a fault. -/
def unitChars : List Nat → List (Option Char)
  | [] => []
  | a :: rest =>
    match rest with
    | b :: more =>
      if isLeadingUnit a && isTrailingUnit b then some (pairChar a b) :: unitChars more
      else if isLeadingUnit a || isTrailingUnit a then none :: unitChars (b :: more)
      else some (Char.ofNat a) :: unitChars (b :: more)
    | [] => [if isLeadingUnit a || isTrailingUnit a then none else some (Char.ofNat a)]

/-- The 16-bit units of bytes; a byte left over is a fault. -/
def units16Of (order : ByteOrder) : Bytes → List Nat × Bool
  | [] => ([], true)
  | [_] => ([], false)
  | a :: b :: rest =>
    let (units, whole) := units16Of order rest
    (order.number [a, b] :: units, whole)

/-- The characters of 32-bit units. -/
def chars32Of (order : ByteOrder) : Bytes → List (Option Char)
  | [] => []
  | a :: b :: c :: d :: rest =>
    let n := order.number [a, b, c, d]
    (if n.isValidChar then some (Char.ofNat n) else none) :: chars32Of order rest
  | _ => [none]

/-- An encoding of texts as bytes. -/
inductive Encoding where
  | utf8
  | utf16 (order : ByteOrder)
  | utf32 (order : ByteOrder)
  | latin1
  | ascii
  deriving DecidableEq, Repr

/-- The characters of bytes, with `none` for each fault. -/
def Encoding.chars : Encoding → Bytes → List (Option Char)
  | .utf8, bytes => utf8Chars none bytes
  | .utf16 order, bytes =>
    let (units, whole) := units16Of order bytes
    unitChars units ++ (if whole then [] else [none])
  | .utf32 order, bytes => chars32Of order bytes
  | .latin1, bytes => bytes.map fun byte => some (Char.ofNat byte.toNat)
  | .ascii, bytes => bytes.map fun byte => if byte.toNat < 0x80 then some (Char.ofNat byte.toNat) else none

/-- The text of bytes, if they hold no fault. -/
def Encoding.decodeStrict (encoding : Encoding) (bytes : Bytes) : Option (List Char) := (encoding.chars bytes).mapM id

/-- The text of bytes, with U+FFFD for each fault. -/
def Encoding.decodeReplacing (encoding : Encoding) (bytes : Bytes) : String :=
  String.ofList ((encoding.chars bytes).map (·.getD replacement))

/-- The encoding of a JSON text and its bytes behind a byte-order mark. Without a mark the zero bytes
among the first four tell the encoding, since the text begins with an ASCII character. -/
def detectJson : Bytes → Encoding × Bytes
  | 0x00 :: 0x00 :: 0xFE :: 0xFF :: rest => (.utf32 .big, rest)
  | 0xFF :: 0xFE :: 0x00 :: 0x00 :: rest => (.utf32 .little, rest)
  | 0xFE :: 0xFF :: rest => (.utf16 .big, rest)
  | 0xFF :: 0xFE :: rest => (.utf16 .little, rest)
  | 0xEF :: 0xBB :: 0xBF :: rest => (.utf8, rest)
  | a :: b :: c :: d :: rest =>
    let bytes := a :: b :: c :: d :: rest
    if a = 0 then (if b = 0 then .utf32 .big else .utf16 .big, bytes)
    else if b = 0 then (if c = 0 && d = 0 then .utf32 .little else .utf16 .little, bytes)
    else (.utf8, bytes)
  | [a, b] => (if a = 0 then .utf16 .big else if b = 0 then .utf16 .little else .utf8, [a, b])
  | bytes => (.utf8, bytes)

/-- The encoding that a charset name stands for. -/
def Encoding.ofName? (name : String) : Option Encoding :=
  if ["utf-8", "utf8", "utf_8", "u8"].contains name then some .utf8
  else if ["latin-1", "latin_1", "latin1", "iso-8859-1", "iso8859-1", "iso_8859_1", "l1"].contains name then some .latin1
  else if ["ascii", "us-ascii", "us_ascii"].contains name then some .ascii
  else none

end VerbForms.Text
