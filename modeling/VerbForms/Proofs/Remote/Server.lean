import VerbForms.Proofs.Json.Atom
import VerbForms.Proofs.Success
import VerbForms.Remote.Gateway

/-!
# The server of an address

An address is written out and read again whenever it gets another path or query. The server that it names
is the same afterwards (`Address.Normal.sameServer`): its scheme, its host but for capitals, and its port,
which need not be written where the scheme has it as its default. A target without a scheme is seen from
its base, and so names the server of the base.
-/

namespace VerbForms.Remote

variable {a b target : Address} {parts : Parts} {c : Char}
  {cs text host after behind tail excluded scheme : List Char} {port : Option Int}

/-! ### Characters -/

theorem toNat_toLower (c : Char) :
    c.toLower.toNat = if 65 ≤ c.toNat ∧ c.toNat ≤ 90 then c.toNat + 32 else c.toNat := by
  by_cases upper : 65 ≤ c.toNat ∧ c.toNat ≤ 90
  · have last : c.val.toNat ≤ 90 := upper.2
    have lowered : c.toLower.toNat = (c.val + 32).toNat := congrArg Char.toNat (dif_pos upper)
    rw [if_pos upper, lowered, UInt32.toNat_add]
    exact Nat.mod_eq_of_lt (by show c.val.toNat + 32 < 2 ^ 32; omega)
  · rw [if_neg upper]
    exact congrArg Char.toNat (dif_neg upper)

theorem toLower_toLower (c : Char) : c.toLower.toLower = c.toLower := by
  apply Char.toNat_inj.mp
  rw [toNat_toLower c.toLower, toNat_toLower]
  split
  · exact if_neg (by omega)
  · rfl

theorem map_toLower_map_toLower (cs : List Char) :
    (cs.map Char.toLower).map Char.toLower = cs.map Char.toLower := by
  rw [List.map_map]
  exact List.map_congr_left fun c _ ↦ toLower_toLower c

/-- A character that is no letter is the lower case of itself alone. -/
theorem mem_map_toLower (other : ∀ d : Char, d.toLower = c → d = c) (mem : c ∈ cs.map Char.toLower) :
    c ∈ cs := by
  obtain ⟨d, hd, lower⟩ := List.mem_map.mp mem
  exact other d lower ▸ hd

theorem eq_of_toLower_eq (low : c.toNat < 97) (d : Char) (lower : d.toLower = c) : d = c := by
  have number := toNat_toLower d
  rw [lower] at number
  split at number
  · omega
  · exact Char.toNat_inj.mp number.symm

theorem isSafe_toLower (safe : isSafe outsideHost c = true) : isSafe outsideHost c.toLower = true := by
  have number := toNat_toLower c
  split at number
  · simp [isSafe, outsideHost, ← Char.toNat_inj, number]
    omega
  · rwa [Char.toNat_inj.mp number]

theorem not_isBlank_of_isDigit (digit : c.isDigit = true) : Text.isBlank c = false := by
  obtain ⟨first, last⟩ := Char.isDigit_iff_toNat.mp digit
  have least : 48 ≤ c.toNat := first
  have most : c.toNat ≤ 57 := last
  simp [Text.isBlank]
  omega

/-! ### Escapes -/

/-- The characters of escapes. -/
def escapeChars : List Char :=
  ['%', '0', '1', '2', '3', '4', '5', '6', '7', '8', '9', 'A', 'B', 'C', 'D', 'E', 'F']

theorem mem_escapeChars {byte : UInt8} (mem : c ∈ percentByte byte) : c ∈ escapeChars := by
  have digit : ∀ n < 16, (if n < 10 then Char.ofNat (48 + n) else Char.ofNat (55 + n)) ∈ escapeChars := by
    decide
  have high : byte.toNat / 16 < 16 := by
    have := byte.toNat_lt
    omega
  rw [percentByte, List.mem_cons, List.mem_cons, List.mem_singleton] at mem
  rcases mem with rfl | rfl | rfl
  · decide
  · exact digit _ high
  · exact digit _ (Nat.mod_lt _ (by decide))

/-- What stands in an encoded text: safe characters of the text, and escapes. -/
theorem mem_percentEncode (mem : c ∈ percentEncode excluded cs) :
    c ∈ cs ∧ isSafe excluded c = true ∨ c ∈ escapeChars := by
  obtain ⟨d, given, here⟩ := List.mem_flatMap.mp mem
  split at here
  · next safe =>
    obtain rfl := List.mem_singleton.mp here
    exact .inl ⟨given, safe⟩
  · obtain ⟨byte, -, escaped⟩ := List.mem_flatMap.mp here
    exact .inr (mem_escapeChars escaped)

/-- An encoded text is safe where escapes are. -/
theorem isSafe_of_mem_percentEncode (escapes : escapeChars.all (isSafe excluded) = true)
    (mem : c ∈ percentEncode excluded cs) : isSafe excluded c = true :=
  (mem_percentEncode mem).elim And.right (List.all_eq_true.mp escapes c)

/-- Where nothing has to be encoded, nothing is. -/
theorem percentEncode_of_safe (safe : ∀ c ∈ cs, isSafe excluded c = true) :
    percentEncode excluded cs = cs := by
  induction cs with
  | nil => rfl
  | cons c cs ih =>
    obtain ⟨here, rest⟩ := List.forall_mem_cons.mp safe
    rw [percentEncode, List.flatMap_cons, if_pos here]
    exact congrArg (c :: ·) (ih rest)

/-! ### Ports -/

theorem splitAt_of_not_mem {separator : Char} (none : separator ∉ cs) : Text.splitAt separator cs = [cs] := by
  induction cs with
  | nil => rfl
  | cons c cs ih =>
    obtain ⟨other, rest⟩ := not_or.mp (List.mem_cons.not.mp none)
    rw [Text.splitAt, ih rest]
    exact if_neg (Ne.symm other)

theorem trimChars_of_plain (plain : ∀ c ∈ cs, Text.isBlank c = false) : Text.trimChars cs = cs := by
  have dropped {cs : List Char} (plain : ∀ c ∈ cs, Text.isBlank c = false) :
      cs.dropWhile Text.isBlank = cs := by
    rw [List.dropWhile_eq_self_iff]
    intro some
    rw [plain _ (List.getElem_mem some)]
    exact Bool.false_ne_true
  rw [Text.trimChars, dropped plain, dropped fun c mem ↦ plain c (List.mem_reverse.mp mem),
    List.reverse_reverse]

theorem groupedNumber?_naturalText (n : Nat) : Text.groupedNumber? (Json.naturalText n) = some n := by
  have plain : '_' ∉ Json.naturalText n := fun mem ↦ by cases Json.isDigit_of_mem_naturalText mem
  have kept : (Json.naturalText n).filter (· != '_') = Json.naturalText n :=
    List.filter_eq_self.mpr fun c mem ↦ bne_iff_ne.mpr fun same ↦ plain (same ▸ mem)
  have digits : (Json.naturalText n).all Char.isDigit = true :=
    List.all_eq_true.mpr fun c ↦ Json.isDigit_of_mem_naturalText
  have some : (Json.naturalText n).isEmpty = false :=
    List.isEmpty_eq_false_iff.mpr (Json.naturalText_ne_nil n)
  simp [Text.groupedNumber?, splitAt_of_not_mem plain, kept, digits, some, Json.naturalOf_naturalText]

theorem toList_toString (n : Int) : (toString n).toList = Json.integerText n := by
  cases n with
  | ofNat n => simp [toString, Int.repr, Nat.repr, Json.integerText, Json.naturalText]
  | negSucc n => simp [toString, Int.repr, Nat.repr, Json.integerText, Json.naturalText]

/-- What a port consists of. -/
theorem mem_toString {n : Int} (mem : c ∈ (toString n).toList) : c = '-' ∨ c.isDigit = true := by
  rw [toList_toString] at mem
  cases n with
  | ofNat n => exact .inr (Json.isDigit_of_mem_naturalText mem)
  | negSucc n => exact (List.mem_cons.mp mem).imp_right Json.isDigit_of_mem_naturalText

/-- A port that is written out is read again. -/
theorem portNumber?_toString (n : Int) : portNumber? (toString n).toList = some n := by
  have plain : ∀ c ∈ (toString n).toList, Text.isBlank c = false := by
    intro c mem
    rcases mem_toString mem with rfl | digit
    · decide
    · exact not_isBlank_of_isDigit digit
  rw [portNumber?, trimChars_of_plain plain, toList_toString]
  cases n with
  | ofNat n =>
    cases digits : Json.naturalText n with
    | nil => exact absurd digits (Json.naturalText_ne_nil n)
    | cons c cs =>
      have digit : c.isDigit = true :=
        Json.isDigit_of_mem_naturalText (digits.symm ▸ List.mem_cons_self)
      rw [Json.integerText, digits, Text.signedNumber?, ← digits, groupedNumber?_naturalText]
      · rfl
      · rintro _ ⟨⟩
        cases digit
      · rintro _ ⟨⟩
        cases digit
  | negSucc n =>
    rw [Json.integerText, Text.signedNumber?, groupedNumber?_naturalText]
    rfl

/-! ### Hosts -/

/-- The host in an authority without its user information. -/
def hostOf (behind : List Char) : List Char :=
  let plain := behind.takeWhile (· != ':')
  match behind with
  | '[' :: _ => if behind.contains ']' then (behind.reverse.dropWhile (· != ']')).reverse else plain
  | _ => plain

/-- The digits of a port behind a host. -/
def digitsOf : List Char → List Char
  | ':' :: digits => digits
  | digits => digits

/-- An authority without its user information. -/
def behindUser (authority : List Char) : List Char := (authority.reverse.takeWhile (· != '@')).reverse

theorem splitAuthority_snd (authority : List Char) :
    (splitAuthority authority).2 = (hostOf (behindUser authority),
      digitsOf ((behindUser authority).drop (hostOf (behindUser authority)).length)) := rfl

/-- How a host can stand in an authority: in square brackets, or without a colon. -/
structure Delimited (host : List Char) : Prop where
  noUser : '@' ∉ host
  ends : (host.head? = some '[' ∧ host.getLast? = some ']') ∨
    ':' ∉ host ∧ (host.head? = some '[' → ']' ∉ host)

theorem not_mem_behindUser (authority : List Char) : '@' ∉ behindUser authority := by
  intro mem
  have passes := List.mem_takeWhile_imp (List.mem_reverse.mp mem)
  cases passes

/-- An authority without a closing bracket behind an opening one. -/
theorem delimited_takeWhile (noUser : '@' ∉ behind) (unclosed : behind.head? = some '[' → ']' ∉ behind) :
    Delimited (behind.takeWhile (· != ':')) := by
  have kept := (List.takeWhile_sublist (· != ':') (l := behind)).subset
  have noColon : ':' ∉ behind.takeWhile (· != ':') := by
    intro mem
    have passes := List.mem_takeWhile_imp mem
    cases passes
  refine ⟨fun mem ↦ noUser (kept mem), .inr ⟨noColon, fun first mem ↦ unclosed ?_ (kept mem)⟩⟩
  cases behind with
  | nil => cases first
  | cons c cs =>
    rw [List.takeWhile_cons] at first
    split at first
    · exact first
    · cases first

/-- A host that begins with a bracket goes up to the last closing one. -/
theorem hostOf_closed {front back : List Char} (last : ']' ∉ back) :
    hostOf ('[' :: (front ++ ']' :: back)) = '[' :: (front ++ [']']) := by
  have closed : ('[' :: (front ++ ']' :: back)).contains ']' = true := by simp
  have back_passes : ∀ c ∈ back.reverse, (c != ']') = true := fun c mem ↦
    bne_iff_ne.mpr fun same ↦ last (same ▸ List.mem_reverse.mp mem)
  have split : ('[' :: (front ++ ']' :: back)).reverse = back.reverse ++ (']' :: ('[' :: front).reverse) := by
    simp
  rw [hostOf, if_pos closed, split, List.dropWhile_append_of_pos back_passes,
    List.dropWhile_cons_of_neg (by decide)]
  simp

theorem hostOf_unclosed (unclosed : behind.head? = some '[' → ']' ∉ behind) :
    hostOf behind = behind.takeWhile (· != ':') := by
  unfold hostOf
  split
  · exact if_neg fun closed ↦ unclosed rfl (List.contains_iff_mem.mp closed)
  · rfl

theorem delimited_hostOf (noUser : '@' ∉ behind) : Delimited (hostOf behind) := by
  by_cases closed : behind.head? = some '[' ∧ ']' ∈ behind
  · obtain ⟨opens, closed⟩ := closed
    obtain ⟨cs, rfl⟩ := List.head?_eq_some_iff.mp opens
    have closed : ']' ∈ cs := by simpa using closed
    obtain ⟨back, front, split, last⟩ := List.eq_append_cons_of_mem (List.mem_reverse.mpr closed)
    have cs_eq : cs = front.reverse ++ ']' :: back.reverse := by
      rw [← List.reverse_reverse cs, split]
      simp
    subst cs_eq
    rw [hostOf_closed fun mem ↦ last (List.mem_reverse.mp mem)]
    refine ⟨fun mem ↦ noUser (List.mem_cons_of_mem _ (List.mem_append_left _ ?_)),
      .inl ⟨rfl, by rw [← List.cons_append, List.getLast?_concat]⟩⟩
    simpa using mem
  · have unclosed : behind.head? = some '[' → ']' ∉ behind := fun opens mem ↦ closed ⟨opens, mem⟩
    rw [hostOf_unclosed unclosed]
    exact delimited_takeWhile noUser unclosed

/-! ### Hosts in normal form -/

/-- A host as it is written in an authority. -/
def written (host : List Char) : List Char := if host.contains ':' then '[' :: (host ++ [']']) else host

/-- A port as it is written behind a host. -/
def portText (port : Option Int) : List Char := (port.map fun n ↦ ':' :: (toString n).toList).getD []

/-- A host in normal form: it is found again where it is written in an authority, and in normal form it is
then the same but for capitals. -/
structure NormalHost (host : List Char) : Prop where
  noUser : '@' ∉ host
  unclosed : ':' ∉ host → host.head? = some '[' → ']' ∉ host
  again : ∀ after, normalizeHost (written host) = .ok after →
    after = host ∨ ':' ∉ host ∧ after = host.map Char.toLower

theorem written_of_not_mem (noColon : ':' ∉ host) : written host = host :=
  if_neg fun colon ↦ noColon (List.contains_iff_mem.mp colon)

theorem normalHost_of_fixed (noUser : '@' ∉ host)
    (unclosed : ':' ∉ host → host.head? = some '[' → ']' ∉ host)
    (fixed : normalizeHost (written host) = .ok host) : NormalHost host :=
  ⟨noUser, unclosed, fun _ again ↦ .inl (Except.ok.inj (again.symm.trans fixed))⟩

/-- A host without a colon stays the same, but for capitals, if all that it can hold is safe. -/
theorem normalHost_of_plain (noUser : '@' ∉ host) (noColon : ':' ∉ host)
    (unclosed : host.head? = some '[' → ']' ∉ host)
    (safe : (∀ c ∈ host, c.toNat < 128) → ∀ c ∈ host, isSafe outsideHost c = true) :
    NormalHost host := by
  refine ⟨noUser, fun _ ↦ unclosed, fun after again ↦ ?_⟩
  rw [written_of_not_mem noColon] at again
  unfold normalizeHost at again
  split at again
  · next none =>
    cases again
    exact .inl (List.isEmpty_iff.mp none).symm
  · split at again
    · split at again
      · exact .inl (Except.ok.inj again).symm
      · cases again
    · split at again
      · next bracketed =>
        exact absurd (List.mem_of_getLast? bracketed.2) (unclosed bracketed.1)
      · split at again
        · next ascii =>
          have plain := safe fun c mem ↦ by simpa using List.all_eq_true.mp ascii c mem
          rw [percentEncode_of_safe] at again
          · exact .inr ⟨noColon, (Except.ok.inj again).symm⟩
          · intro c mem
            obtain ⟨d, hd, rfl⟩ := List.mem_map.mp mem
            exact isSafe_toLower (plain d hd)
        · exact .inr ⟨noColon, (Except.ok.inj again).symm⟩

/-- An IPv6 address has a colon. -/
theorem mem_of_isIPv6 (address : isIPv6 host = true) : ':' ∈ host := by
  by_contra none
  unfold isIPv6 at address
  rw [splitAt_of_not_mem none] at address
  split at address
  · cases address
  · simp at address

/-- An address in dotted decimals does not begin with a bracket. -/
theorem head?_of_isDotted (dotted : isDotted 4 false text = true) : text.head? ≠ some '[' := by
  intro first
  cases text with
  | nil => cases first
  | cons c cs =>
    obtain rfl := Option.some.inj first
    rw [isDotted] at dotted
    cases dotted

/-- The text between brackets. -/
theorem normalHost_of_bracketed (noUser : '@' ∉ text)
    (bracketed : text.head? = some '[' ∧ text.getLast? = some ']')
    (address : isIPv6 (text.drop 1).dropLast = true)
    (whole : normalizeHost text = .ok (text.drop 1).dropLast) : NormalHost (text.drop 1).dropLast := by
  obtain ⟨front, rfl⟩ := List.getLast?_eq_some_iff.mp bracketed.2
  cases front with
  | nil => cases bracketed.1
  | cons c inner =>
    obtain rfl := Option.some.inj bracketed.1
    have stripped : (('[' :: inner ++ [']']).drop 1).dropLast = inner := List.dropLast_concat
    rw [stripped] at address whole ⊢
    have colon := mem_of_isIPv6 address
    refine normalHost_of_fixed ?_ (fun noColon ↦ absurd colon noColon) ?_
    · exact fun mem ↦ noUser (List.mem_append_left _ (List.mem_cons_of_mem _ mem))
    · rwa [written, if_pos (List.contains_iff_mem.mpr colon)]

/-- A name with what it cannot hold percent-encoded. -/
theorem normalHost_percentEncode (text : List Char) : NormalHost (percentEncode outsideHost text) := by
  have safe : ∀ c ∈ percentEncode outsideHost text, isSafe outsideHost c = true := fun c ↦
    isSafe_of_mem_percentEncode (by decide)
  have absent (d : Char) (outside : isSafe outsideHost d = false) : d ∉ percentEncode outsideHost text := by
    intro mem
    rw [safe d mem] at outside
    cases outside
  exact normalHost_of_plain (absent '@' rfl) (absent ':' rfl) (fun _ ↦ absent ']' rfl) fun _ ↦ safe

/-- A name beyond ASCII in small letters. -/
theorem normalHost_of_foreign (noUser : '@' ∉ text) (noColon : ':' ∉ text)
    (unclosed : text.head? = some '[' → ']' ∉ text) (foreign : ¬ ∀ c ∈ text, c.toNat < 128) :
    NormalHost (text.map Char.toLower) := by
  have lower (d : Char) (low : d.toNat < 97) (mem : d ∈ text.map Char.toLower) : d ∈ text :=
    mem_map_toLower (eq_of_toLower_eq low) mem
  refine normalHost_of_plain (fun mem ↦ noUser (lower '@' (by decide) mem))
    (fun mem ↦ noColon (lower ':' (by decide) mem)) (fun first mem ↦ ?_) fun ascii ↦ ?_
  · refine unclosed ?_ (lower ']' (by decide) mem)
    cases text with
    | nil => cases first
    | cons c cs => rw [List.head?_cons, eq_of_toLower_eq (by decide) c (Option.some.inj first)]
  · refine absurd (fun c mem ↦ ?_) foreign
    have small := ascii _ (List.mem_map_of_mem mem)
    rw [toNat_toLower] at small
    split at small <;> omega

/-- A host that has been brought into normal form is in normal form. -/
theorem normalHost_of_delimited (h : Delimited text) (normal : normalizeHost text = .ok host) :
    NormalHost host := by
  have whole := normal
  unfold normalizeHost at normal
  split at normal
  · cases normal
    exact normalHost_of_fixed List.not_mem_nil (fun _ first ↦ by cases first) rfl
  · split at normal
    · next dotted =>
      split at normal
      · cases normal
        obtain ⟨noColon, unclosed⟩ :=
          h.ends.resolve_left fun bracketed ↦ head?_of_isDotted dotted bracketed.1
        exact normalHost_of_fixed h.noUser (fun _ ↦ unclosed) (by rwa [written_of_not_mem noColon])
      · cases normal
    · split at normal
      · next bracketed =>
        dsimp only at normal
        split at normal
        · next address =>
          cases normal
          exact normalHost_of_bracketed h.noUser bracketed address whole
        · cases normal
      · next free =>
        obtain ⟨noColon, unclosed⟩ := h.ends.resolve_left free
        split at normal
        · cases normal
          exact normalHost_percentEncode _
        · next foreign =>
          cases normal
          exact normalHost_of_foreign h.noUser noColon unclosed fun ascii ↦ foreign (by simpa using ascii)

/-! ### Authorities in normal form -/

theorem not_mem_portText {d : Char} (other : d ≠ ':') (noSign : d ≠ '-') (noDigit : d.isDigit = false)
    (port : Option Int) : d ∉ portText port := by
  cases port with
  | none => exact List.not_mem_nil
  | some n =>
    intro mem
    rcases List.mem_cons.mp mem with same | mem
    · exact other same
    · rcases mem_toString mem with same | digit
      · exact noSign same
      · rw [noDigit] at digit
        cases digit

/-- A host is found where it is written. -/
theorem NormalHost.hostOf_written (h : NormalHost host) (port : Option Int) :
    hostOf (written host ++ portText port) = written host := by
  by_cases colon : ':' ∈ host
  · rw [written, if_pos (List.contains_iff_mem.mpr colon), List.cons_append, List.append_assoc]
    exact hostOf_closed (not_mem_portText (by decide) (by decide) rfl port)
  · rw [written_of_not_mem colon, hostOf_unclosed]
    · have each : ∀ c ∈ host, (c != ':') = true := fun c mem ↦
        bne_iff_ne.mpr fun same ↦ colon (same ▸ mem)
      rw [List.takeWhile_append_of_pos each]
      cases port <;> exact List.append_nil host
    · intro first mem
      rcases List.mem_append.mp mem with mem | mem
      · refine h.unclosed colon ?_ mem
        cases host with
        | nil => cases mem
        | cons c cs => exact first
      · exact not_mem_portText (by decide) (by decide) rfl port mem

theorem digitsOf_portText (port : Option Int) :
    digitsOf (portText port) = (port.map fun n ↦ (toString n).toList).getD [] := by
  cases port <;> rfl

theorem behindUser_of_not_mem (none : '@' ∉ tail) : behindUser tail = tail := by
  have each : ∀ c ∈ tail.reverse, (c != '@') = true := fun c mem ↦
    bne_iff_ne.mpr fun same ↦ none (same ▸ List.mem_reverse.mp mem)
  rw [behindUser, List.takeWhile_eq_self_iff.mpr each, List.reverse_reverse]

theorem behindUser_append (none : '@' ∉ tail) (user : List Char) :
    behindUser (user ++ '@' :: tail) = tail := by
  have each : ∀ c ∈ tail.reverse, (c != '@') = true := fun c mem ↦
    bne_iff_ne.mpr fun same ↦ none (same ▸ List.mem_reverse.mp mem)
  have split : (user ++ '@' :: tail).reverse = tail.reverse ++ '@' :: user.reverse := by simp
  rw [behindUser, split, List.takeWhile_append_of_pos each, List.takeWhile_cons_of_neg (by decide),
    List.append_nil, List.reverse_reverse]

/-- **Host and port are found again where they are written.** -/
theorem NormalHost.splitAuthority (h : NormalHost a.host) :
    (splitAuthority a.authority).2 =
      (written a.host, (a.portNumber.map fun n ↦ (toString n).toList).getD []) := by
  have noUser : '@' ∉ written a.host ++ portText a.portNumber := by
    intro mem
    rcases List.mem_append.mp mem with mem | mem
    · rw [written] at mem
      split at mem
      · exact h.noUser (by simpa using mem)
      · exact h.noUser mem
    · exact not_mem_portText (by decide) (by decide) rfl _ mem
  have behind : behindUser a.authority = written a.host ++ portText a.portNumber := by
    rw [Address.authority]
    split
    · rw [List.nil_append]
      exact behindUser_of_not_mem noUser
    · rw [List.append_assoc, List.append_assoc]
      exact behindUser_append noUser a.userinfo
  rw [splitAuthority_snd, behind, h.hostOf_written, List.drop_left, digitsOf_portText]

/-! ### Servers -/

/-- What tells a server from another one: scheme, host without regard to capitals, and port. -/
structure Server where
  scheme : List Char
  host : List Char
  port : Option Int
  deriving DecidableEq, Repr

namespace Address

/-- The server that an address names; where no port is written it is the default one of the scheme. -/
def server (a : Address) : Server where
  scheme := a.scheme
  host := a.host.map Char.toLower
  port := a.portNumber.or (defaultPorts.lookup a.scheme)

/-- An address whose host has no capitals but for those of a numeric address, and which writes no port that
need not be written. -/
def IsPlain (a : Address) : Prop :=
  (':' ∈ a.host ∨ a.host.map Char.toLower = a.host) ∧
    ∀ n, a.portNumber = some n → defaultPorts.lookup a.scheme ≠ some n

/-- Two addresses name the same server, and a plain one does so by the same scheme, host and port. -/
structure SameServer (a b : Address) : Prop where
  server : b.server = a.server
  plain : a.IsPlain → b.scheme = a.scheme ∧ b.host = a.host ∧ b.portNumber = a.portNumber

theorem SameServer.refl (a : Address) : SameServer a a := ⟨rfl, fun _ ↦ ⟨rfl, rfl, rfl⟩⟩

theorem SameServer.trans {c : Address} (h : SameServer a b) (more : SameServer b c) : SameServer a c := by
  refine ⟨more.server.trans h.server, fun plain ↦ ?_⟩
  obtain ⟨scheme, host, port⟩ := h.plain plain
  obtain ⟨scheme', host', port'⟩ := more.plain (by rwa [IsPlain, scheme, host, port])
  exact ⟨scheme'.trans scheme, host'.trans host, port'.trans port⟩

/-- An address in normal form. -/
structure Normal (a : Address) : Prop where
  scheme : a.scheme.map Char.toLower = a.scheme
  host : NormalHost a.host

end Address

/-- The parts of an address in normal form that tell its server. -/
theorem normalize_eq_ok (normal : parts.normalize = .ok a) :
    normalizeHost (splitAuthority parts.authority).2.1 = .ok a.host ∧
      normalizePort parts.scheme (splitAuthority parts.authority).2.2 = .ok a.portNumber ∧
      a.scheme = parts.scheme.map Char.toLower := by
  obtain ⟨host, hostOk, rest⟩ := bind_eq_ok.mp normal
  obtain ⟨port, portOk, rest⟩ := bind_eq_ok.mp rest
  obtain ⟨_, -, rest⟩ := bind_eq_ok.mp rest
  obtain rfl := pure_eq_ok.mp rest
  exact ⟨hostOk, portOk, rfl⟩

theorem normal_of_normalize (normal : parts.normalize = .ok a) : a.Normal := by
  obtain ⟨host, -, scheme⟩ := normalize_eq_ok normal
  refine ⟨by rw [scheme, map_toLower_map_toLower], normalHost_of_delimited ?_ host⟩
  exact delimited_hostOf (not_mem_behindUser parts.authority)

/-- A port that is written and read again is left out if it is the default one. -/
theorem normalizePort_toString {again : Option Int}
    (normal : normalizePort scheme ((port.map fun n ↦ (toString n).toList).getD []) = .ok again) :
    again = port ∨ again = none ∧ port = defaultPorts.lookup scheme := by
  cases port with
  | none => exact .inl (Except.ok.inj normal).symm
  | some n =>
    have read := portNumber?_toString n
    rw [Option.map_some, Option.getD_some, normalizePort] at normal
    cases digits : (toString n).toList with
    | nil =>
      rw [digits] at read
      cases read
    | cons c cs =>
      rw [digits] at read normal
      rw [List.isEmpty_cons, if_neg Bool.false_ne_true, read] at normal
      dsimp only at normal
      split at normal
      · next default => exact .inr ⟨(Except.ok.inj normal).symm, default.symm⟩
      · exact .inl (Except.ok.inj normal).symm

/-- **An address keeps its server** when it gets another path and query. -/
theorem Address.Normal.sameServer (h : a.Normal) (again : a.withPathAndQuery cs = .ok b) :
    b.Normal ∧ a.SameServer b := by
  refine ⟨normal_of_normalize again, ?_⟩
  obtain ⟨host, port, scheme⟩ := normalize_eq_ok again
  dsimp only at host port scheme
  rw [h.host.splitAuthority] at host port
  rw [h.scheme] at scheme
  have hosts := h.host.again b.host host
  have ports := normalizePort_toString port
  constructor
  · have sameHost : b.host.map Char.toLower = a.host.map Char.toLower := by
      rcases hosts with same | ⟨-, lower⟩
      · rw [same]
      · rw [lower, map_toLower_map_toLower]
    have samePort : b.portNumber.or (defaultPorts.lookup b.scheme) =
        a.portNumber.or (defaultPorts.lookup a.scheme) := by
      rw [scheme]
      rcases ports with same | ⟨none, default⟩
      · rw [same]
      · rw [none, default, Option.none_or, Option.or_self]
    rw [server, server, sameHost, samePort, scheme]
  · rintro ⟨named, needed⟩
    refine ⟨scheme, ?_, ?_⟩
    · rcases hosts with same | ⟨noColon, lower⟩
      · exact same
      · rw [lower, named.resolve_left noColon]
    · rcases ports with same | ⟨none, default⟩
      · exact same
      · rw [none]
        cases written : a.portNumber with
        | none => rfl
        | some n => exact absurd (default.symm.trans written) (needed n written)

theorem Address.Normal.asBase (h : a.Normal) (again : a.asBase = .ok b) : b.Normal ∧ a.SameServer b := by
  rw [Address.asBase] at again
  split at again
  · cases again
    exact ⟨h, .refl a⟩
  · exact h.sameServer again

theorem Address.normal_of_parse {url : String} (parsed : Address.parse url = .ok a) : a.Normal := by
  rw [Address.parse] at parsed
  split at parsed
  · cases parsed
  · split at parsed
    · cases parsed
    · exact normal_of_normalize parsed

/-! ### Targets -/

/-- A text that begins with one slash. -/
def Rooted (text : String) : Prop := ∃ rest : List Char, text.toList = '/' :: rest ∧ rest.head? ≠ some '/'

/-- One slash begins neither a scheme nor an authority. -/
theorem ofChars_of_rooted {rest : List Char} (one : rest.head? ≠ some '/') :
    (Parts.ofChars ('/' :: rest)).scheme = [] ∧ (Parts.ofChars ('/' :: rest)).authority = [] := by
  have noScheme : splitScheme ('/' :: rest) = ([], '/' :: rest) := rfl
  cases rest with
  | nil => exact ⟨rfl, rfl⟩
  | cons c cs =>
    have other : c ≠ '/' := fun same ↦ one (congrArg some same)
    rw [Parts.ofChars, noScheme]
    dsimp only
    refine ⟨rfl, ?_⟩
    split
    · next same => exact absurd (List.cons.inj (List.cons.inj same).2).1 other
    · rfl

/-- A text that begins with one slash names no server. -/
theorem not_isAbsolute_of_rooted {url : String} (rooted : Rooted url)
    (parsed : Address.parse url = .ok target) :
    target.scheme = [] ∧ target.host = [] ∧ target.isAbsolute = false := by
  obtain ⟨rest, chars, one⟩ := rooted
  rw [Address.parse, chars] at parsed
  split at parsed
  · cases parsed
  · split at parsed
    · cases parsed
    · obtain ⟨noScheme, noAuthority⟩ := ofChars_of_rooted one
      obtain ⟨host, -, scheme⟩ := normalize_eq_ok parsed
      rw [noAuthority] at host
      rw [noScheme] at scheme
      have noHost : target.host = [] := (Except.ok.inj host).symm
      exact ⟨scheme, noHost, by rw [Address.isAbsolute, scheme]; rfl⟩

end VerbForms.Remote
