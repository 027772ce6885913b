import VerbForms.Proofs.Remote.Queries

/-!
# The resource behind a target with a query

A query that is put behind a text changes neither the server nor the path that the text names. So a
gateway that finds an address for a target of its resource finds one for the resource itself
(`Gateway.exists_addressOf_resource`).
-/

namespace VerbForms.Remote

variable {gateway : Gateway} {a own target base : Address} {front more path : String}
  {cs query : List Char} {c : Char}

/-! ### Parts of a text with a query behind it -/

/-- The characters at the start of a text that are a scheme if a colon follows. -/
def schemeOf : List Char → List Char
  | [] => []
  | c :: cs => if c.isAlpha then (c :: cs).takeWhile isSchemeChar else []

theorem schemeOf_append (cs query : List Char) : schemeOf (cs ++ '?' :: query) = schemeOf cs := by
  cases cs with
  | nil => rfl
  | cons c cs => rw [List.cons_append, schemeOf, schemeOf, ← List.cons_append, takeWhile_append_stop rfl]

theorem length_schemeOf_le (cs : List Char) : (schemeOf cs).length ≤ cs.length := by
  cases cs with
  | nil => exact Nat.le_refl 0
  | cons c cs =>
    rw [schemeOf]
    split
    · exact (List.takeWhile_sublist _).length_le
    · exact Nat.zero_le _

theorem splitScheme_eq (cs : List Char) : splitScheme cs =
    match cs.drop (schemeOf cs).length with
    | ':' :: rest => (schemeOf cs, rest)
    | _ => ([], cs) := by
  cases cs <;> rfl

theorem splitScheme_append (cs query : List Char) :
    splitScheme (cs ++ '?' :: query) =
      ((splitScheme cs).1, (splitScheme cs).2 ++ '?' :: query) := by
  rw [splitScheme_eq, splitScheme_eq, schemeOf_append,
    List.drop_append_of_le_length (length_schemeOf_le cs)]
  cases cs.drop (schemeOf cs).length with
  | nil => rfl
  | cons d ds =>
    by_cases colon : d = ':'
    · subst colon
      rfl
    · rw [List.cons_append]
      split
      · next same => exact absurd (List.cons.inj same).1 colon
      · split
        · next same => exact absurd (List.cons.inj same).1 colon
        · rfl

/-- The authority of a text, and what follows it. -/
def splitServer : List Char → List Char × List Char
  | '/' :: '/' :: rest => (rest.takeWhile isAuthorityChar, rest.dropWhile isAuthorityChar)
  | rest => ([], rest)

theorem splitServer_append (cs query : List Char) :
    splitServer (cs ++ '?' :: query) = ((splitServer cs).1, (splitServer cs).2 ++ '?' :: query) := by
  fun_cases splitServer cs with
  | case1 rest =>
    rw [List.cons_append, List.cons_append, splitServer, takeWhile_append_stop rfl,
      dropWhile_append_stop rfl]
  | case2 _ plain =>
    have plain' : ∀ rest, cs ++ '?' :: query ≠ '/' :: '/' :: rest := by
      intro rest same
      match cs, plain, same with
      | [], _, same => cases same
      | [d], _, same => cases same
      | d :: e :: ds, plain, same =>
        simp only [List.cons_append, List.cons.injEq] at same
        obtain ⟨rfl, rfl, -⟩ := same
        exact plain ds rfl
    rw [splitServer.eq_2 _ plain']

/-- A query behind a text changes query and fragment only. -/
theorem exists_ofChars_append (cs query : List Char) : ∃ behind fragment,
    Parts.ofChars (cs ++ '?' :: query) =
      { Parts.ofChars cs with query := behind, fragment := fragment } := by
  have parts (cs : List Char) : ∃ behind fragment, Parts.ofChars cs =
      ⟨(splitScheme cs).1, (splitServer (splitScheme cs).2).1,
        (splitServer (splitScheme cs).2).2.takeWhile fun c ↦ c != '?' && c != '#', behind, fragment⟩ :=
    ⟨_, _, rfl⟩
  obtain ⟨_, _, own⟩ := parts cs
  obtain ⟨behind, fragment, whole⟩ := parts (cs ++ '?' :: query)
  refine ⟨behind, fragment, ?_⟩
  rw [whole, own, splitScheme_append, splitServer_append, takeWhile_append_stop rfl]

theorem exists_parse_resource (starts : more.toList = '?' :: query)
    (parsed : Address.parse (front ++ more) = .ok target) :
    ∃ own behind fragment, Address.parse front = .ok own ∧
      target = { own with query := behind, fragment := fragment } := by
  obtain ⟨behind, fragment, parts⟩ := exists_ofChars_append front.toList query
  rw [← starts, ← String.toList_append] at parts
  obtain ⟨own, ownParsed, -, rfl⟩ := exists_parse_front parts parsed
  exact ⟨own, _, _, ownParsed, rfl⟩

/-! ### Joined addresses -/

/-- The path of a joined address is joined of the paths of base and target. -/
theorem takeWhile_pathAndQuery (base own : Address) :
    (base.pathAndQuery ++ own.pathAndQuery.dropWhile (· == '/')).takeWhile (· != '?') =
      (base.pathAndQuery ++ (if own.path.isEmpty then ['/'] else own.path).dropWhile
        (· == '/')).takeWhile (· != '?') := by
  unfold Address.pathAndQuery
  cases own.query with
  | none => simp
  | some query =>
    rw [Option.map_some, Option.getD_some, dropWhile_append_stop rfl, ← List.append_assoc,
      takeWhile_append_stop rfl]

/-- The query has no part in whether parts can be normalized. -/
theorem exists_normalize {scheme authority path : List Char} {behind other fragment : Option (List Char)}
    (normal : Parts.normalize ⟨scheme, authority, path, behind, fragment⟩ = .ok a) :
    ∃ b, Parts.normalize ⟨scheme, authority, path, other, fragment⟩ = .ok b := by
  have alike := normalize_with ⟨scheme, authority, path, behind, fragment⟩ other fragment
  rw [normal] at alike
  exact ⟨_, alike⟩

/-- Whether a target can be joined to a base does not depend on its query and fragment. -/
theorem exists_join {behind fragment : Option (List Char)}
    (joined : base.join { own with query := behind, fragment := fragment } = .ok a) :
    ∃ b, base.join own = .ok b := by
  have still : Address.isAbsolute { own with query := behind, fragment := fragment } = own.isAbsolute :=
    rfl
  rw [Address.join, still] at joined
  rw [Address.join]
  split at joined
  · next absolute => exact ⟨own, if_pos absolute⟩
  · next relative =>
    rw [if_neg relative, withPathAndQuery_eq, takeWhile_pathAndQuery]
    rw [withPathAndQuery_eq, takeWhile_pathAndQuery] at joined
    exact exists_normalize joined

/-- The target of a request for a resource is the resource with another query and fragment. -/
theorem Gateway.exists_target (means : MeansResource path) (found : gateway.addressOf path = .ok a) :
    ∃ own query fragment, Address.parse gateway.resourcePath = .ok own ∧
      gateway.base.join { own with query, fragment } = .ok a := by
  obtain ⟨target, parsed, joined⟩ := bind_eq_ok.mp found
  unfold Gateway.target at parsed
  dsimp only at parsed
  split at parsed
  · exact ⟨target, target.query, target.fragment, parsed, joined⟩
  · next full =>
    rcases means with empty | begins
    · rw [empty] at full
      exact absurd (String.isEmpty_iff.mpr rfl) full
    · rw [if_pos begins] at parsed
      obtain ⟨query, starts⟩ := List.head?_eq_some_iff.mp ((beginsWith_iff rfl _).mp begins)
      obtain ⟨own, behind, fragment, ownParsed, rfl⟩ := exists_parse_resource starts parsed
      exact ⟨own, behind, fragment, ownParsed, joined⟩

/-- **A gateway that finds an address for a target of its resource finds one for the resource.** -/
theorem Gateway.exists_addressOf_resource (means : MeansResource path)
    (found : gateway.addressOf path = .ok a) : ∃ own, gateway.addressOf "" = .ok own := by
  obtain ⟨own, query, fragment, parsed, joined⟩ := exists_target means found
  obtain ⟨b, ownJoined⟩ := exists_join joined
  exact ⟨b, bind_eq_ok.mpr ⟨own, parsed, ownJoined⟩⟩

end VerbForms.Remote
