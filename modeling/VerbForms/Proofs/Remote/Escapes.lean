import VerbForms.Host.Request
import VerbForms.Proofs.Remote.Server

/-!
# Escapes

What a part of an address cannot hold is percent-encoded. An encoded text is not encoded again, and a text
without a percent sign can be read from it, so that two such texts differ where they are encoded too.
-/

namespace VerbForms.Remote

variable {cs ds excluded : List Char} {c : Char}

/-! ### Encoding twice -/

theorem percentEncode_append (excluded cs ds : List Char) :
    percentEncode excluded (cs ++ ds) = percentEncode excluded cs ++ percentEncode excluded ds :=
  List.flatMap_append

theorem percentEncode_cons_of_safe (safe : isSafe excluded c = true) (cs : List Char) :
    percentEncode excluded (c :: cs) = c :: percentEncode excluded cs := by
  rw [percentEncode, List.flatMap_cons, if_pos safe]
  rfl

/-- **A query that is encoded is not encoded again.** -/
theorem percentEncode_percentEncode (cs : List Char) :
    percentEncode outsideQuery (percentEncode outsideQuery cs) = percentEncode outsideQuery cs :=
  percentEncode_of_safe fun _ ↦ isSafe_of_mem_percentEncode (by decide)

/-! ### Reading what is encoded -/

/-- The two digits of an escape are read as its byte. -/
theorem percentBytes_percentByte (byte : UInt8) (rest : List Char) :
    Host.percentBytes false (percentByte byte ++ rest) = byte :: Host.percentBytes false rest := by
  have digit : ∀ n < 16,
      Json.hexValue? (if n < 10 then Char.ofNat (48 + n) else Char.ofNat (55 + n)) = some n := by
    decide
  have high : byte.toNat / 16 < 16 := by
    have := byte.toNat_lt
    omega
  rw [percentByte, List.cons_append, List.cons_append, List.cons_append, List.nil_append,
    Host.percentBytes, digit _ high, digit _ (Nat.mod_lt _ (by decide))]
  dsimp only
  rw [Nat.div_add_mod, UInt8.ofNat_toNat]

theorem percentBytes_flatMap (bytes : List UInt8) (rest : List Char) :
    Host.percentBytes false (bytes.flatMap percentByte ++ rest) =
      bytes ++ Host.percentBytes false rest := by
  induction bytes with
  | nil => rfl
  | cons byte bytes ih =>
    rw [List.flatMap_cons, List.append_assoc, percentBytes_percentByte, ih, List.cons_append]

theorem percentBytes_cons (other : c ≠ '%') (rest : List Char) :
    Host.percentBytes false (c :: rest) = String.utf8EncodeChar c ++ Host.percentBytes false rest := by
  rw [Host.percentBytes]
  · rw [if_neg fun plus ↦ Bool.false_ne_true plus.2]
  · exact fun _ _ _ same _ ↦ other same

/-- **The bytes of a text are read from its encoding**, unless the text has a percent sign. -/
theorem percentBytes_percentEncode (plain : '%' ∉ cs) :
    Host.percentBytes false (percentEncode excluded cs) = cs.flatMap String.utf8EncodeChar := by
  induction cs with
  | nil => rw [percentEncode, List.flatMap_nil, List.flatMap_nil, Host.percentBytes]
  | cons c cs ih =>
    obtain ⟨other, rest⟩ := not_or.mp (List.mem_cons.not.mp plain)
    have read := ih rest
    rw [percentEncode] at read
    rw [percentEncode, List.flatMap_cons, List.flatMap_cons]
    split
    · rw [List.singleton_append, percentBytes_cons (Ne.symm other), read]
    · rw [percentBytes_flatMap, read]

/-- Two texts without a percent sign that are encoded alike are the same. -/
theorem eq_of_percentEncode_eq (plain : '%' ∉ cs) (plain' : '%' ∉ ds)
    (same : percentEncode excluded cs = percentEncode excluded ds) : cs = ds := by
  have bytes := congrArg (Host.percentBytes false) same
  rw [percentBytes_percentEncode plain, percentBytes_percentEncode plain'] at bytes
  have texts : (String.ofList cs).toByteArray = (String.ofList ds).toByteArray := by
    rw [String.toByteArray_ofList, String.toByteArray_ofList, List.utf8Encode, List.utf8Encode, bytes]
  exact String.ofList_inj.mp (String.toByteArray_inj.mp texts)

end VerbForms.Remote
