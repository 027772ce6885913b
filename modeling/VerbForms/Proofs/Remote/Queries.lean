import VerbForms.Proofs.Remote.Escapes
import VerbForms.Proofs.Remote.Gateway
import VerbForms.Proofs.Text.Blank
import Mathlib.Data.List.TakeWhile

/-!
# Queries of targets

The query of a text begins behind its first question mark, and ends where its fragment begins. A query
that is put behind the text of a resource is therefore part of the fragment if the resource has one, and
else is glued to the query that the resource has already (`Gateway.addressOf_query`).
-/

namespace VerbForms.Remote

variable {gateway : Gateway} {a own target : Address} {baseUrl front more text path : String}
  {mark c : Char} {cs rest query : List Char}

/-! ### Marks -/

/-- What stands behind the first mark in a text, if the mark is there. -/
def behind? (mark : Char) (cs : List Char) : Option (List Char) :=
  match cs.dropWhile (· != mark) with
  | [] => none
  | _ :: rest => some rest

/-- A text glued to another one by a mark, or alone where there is no other one. -/
def glued (mark : Char) (more : List Char) : Option (List Char) → List Char
  | none => more
  | some cs => cs ++ mark :: more

theorem glued_inj {before : Option (List Char)} (same : glued mark cs before = glued mark rest before) :
    cs = rest := by
  cases before with
  | none => exact same
  | some front => exact (List.cons.inj (List.append_cancel_left same)).2

@[simp] theorem behind?_nil : behind? mark [] = none := rfl

@[simp] theorem behind?_cons_self : behind? mark (mark :: rest) = some rest := by simp [behind?]

@[simp] theorem behind?_cons_of_ne (other : c ≠ mark) : behind? mark (c :: rest) = behind? mark rest := by
  simp [behind?, other]

theorem behind?_append (mark : Char) (cs more : List Char) :
    behind? mark (cs ++ mark :: more) = some (glued mark more (behind? mark cs)) := by
  induction cs with
  | nil => exact behind?_cons_self
  | cons c cs ih =>
    rw [List.cons_append]
    by_cases here : c = mark
    · rw [here, behind?_cons_self, behind?_cons_self, glued]
    · rw [behind?_cons_of_ne here, ih, behind?_cons_of_ne here]

theorem behind?_eq_none_iff : behind? mark cs = none ↔ mark ∉ cs := by
  induction cs with
  | nil => simp
  | cons c cs ih =>
    by_cases here : c = mark
    · simp [here]
    · simp [here, ih, Ne.symm here]

theorem takeWhile_append_stop {test : Char → Bool} (stop : test c = false) (cs more : List Char) :
    (cs ++ c :: more).takeWhile test = cs.takeWhile test := by
  induction cs with
  | nil => rw [List.nil_append, List.takeWhile_cons, stop, List.takeWhile_nil]; rfl
  | cons d cs ih => rw [List.cons_append, List.takeWhile_cons, List.takeWhile_cons, ih]

theorem takeWhile_append_mark (mark : Char) (cs more : List Char) :
    (cs ++ mark :: more).takeWhile (· != mark) = cs.takeWhile (· != mark) :=
  @takeWhile_append_stop mark (· != mark) (bne_self_eq_false mark) cs more

theorem takeWhile_append_of_mem (mem : mark ∈ cs) (more : List Char) :
    (cs ++ more).takeWhile (· != mark) = cs.takeWhile (· != mark) := by
  obtain ⟨front, back, rfl⟩ := List.append_of_mem mem
  rw [List.append_assoc, List.cons_append, takeWhile_append_mark, takeWhile_append_mark]

theorem takeWhile_of_not_mem (none : mark ∉ cs) : cs.takeWhile (· != mark) = cs :=
  List.takeWhile_eq_self_iff.mpr fun _ mem ↦ bne_iff_ne.mpr fun same ↦ none (same ▸ mem)

/-! ### The parts of a text -/

theorem behind_hash (cs : List Char) :
    (match cs.dropWhile (· != '#') with
      | '#' :: rest => some rest
      | _ => none) = behind? '#' cs := by
  induction cs with
  | nil => rfl
  | cons c cs ih =>
    by_cases hash : c = '#'
    · subst hash
      simp
    · simpa [hash] using ih

theorem behind_question (cs : List Char) :
    (match cs.drop (cs.takeWhile (· != '?')).length with
      | '?' :: rest => some rest
      | _ => none) = behind? '?' cs := by
  induction cs with
  | nil => rfl
  | cons c cs ih =>
    by_cases question : c = '?'
    · subst question
      simp
    · simpa [question] using ih

/-- What follows the path of a text. -/
theorem query_and_fragment (cs : List Char) :
    (match cs.drop (cs.takeWhile fun c ↦ c != '?' && c != '#').length with
      | '?' :: rest => (some (rest.takeWhile (· != '#')), rest.dropWhile (· != '#'))
      | rest => (none, rest)) = (behind? '?' (cs.takeWhile (· != '#')), cs.dropWhile (· != '#')) := by
  induction cs with
  | nil => rfl
  | cons c cs ih =>
    by_cases question : c = '?'
    · subst question
      simp
    · by_cases hash : c = '#'
      · subst hash
        simp
      · simpa [question, hash] using ih

/-- **The parts of a text that begins with one slash.** Its fragment stands behind the first hash, and its
query behind the first question mark before that. -/
theorem Rooted.ofChars (h : Rooted text) :
    Parts.ofChars text.toList = {
      scheme := [], authority := []
      path := (text.toList.takeWhile (· != '#')).takeWhile (· != '?')
      query := behind? '?' (text.toList.takeWhile (· != '#'))
      fragment := behind? '#' text.toList } := by
  obtain ⟨rest, rooted, one⟩ := h
  generalize text.toList = cs at rooted ⊢
  have path : cs.takeWhile (fun c ↦ c != '?' && c != '#') =
      (cs.takeWhile (· != '#')).takeWhile (· != '?') := by
    rw [List.takeWhile_takeWhile]
    refine congrArg (cs.takeWhile ·) (funext fun c ↦ ?_)
    rw [Bool.decide_and, Bool.decide_eq_true, Bool.decide_eq_true]
  have noScheme : splitScheme cs = ([], cs) := by
    rw [rooted]
    rfl
  have both := query_and_fragment cs
  unfold Parts.ofChars
  rw [noScheme]
  dsimp only
  split
  · cases rooted
    exact absurd rfl one
  · dsimp only
    have fragment := congrArg (fun found : Option (List Char) × List Char ↦
      match found.2 with
      | '#' :: rest => some rest
      | _ => none) both
    rw [Parts.mk.injEq]
    exact ⟨rfl, rfl, path, congrArg Prod.fst both, fragment.trans (behind_hash cs)⟩

/-- What is put behind a text with a fragment belongs to the fragment. -/
theorem Rooted.ofChars_append_of_fragment (h : Rooted front) (starts : more.toList = '?' :: query)
    (fragment : '#' ∈ front.toList) :
    Parts.ofChars (front ++ more).toList =
      { Parts.ofChars front.toList with fragment := behind? '#' (front ++ more).toList } := by
  rw [(h.append_query starts).ofChars, h.ofChars, String.toList_append, takeWhile_append_of_mem fragment]

/-- A query that is put behind a text without a fragment is glued to the query of the text. -/
theorem Rooted.ofChars_append_query (h : Rooted front) (starts : more.toList = '?' :: query)
    (noFragment : '#' ∉ front.toList) (plain : '#' ∉ query) :
    Parts.ofChars (front ++ more).toList = { Parts.ofChars front.toList with
      query := some (glued '?' query (Parts.ofChars front.toList).query)
      fragment := behind? '#' (front ++ more).toList } := by
  have none : '#' ∉ (front ++ more).toList := by
    rw [String.toList_append, starts, List.mem_append, List.mem_cons, not_or, not_or]
    exact ⟨noFragment, by decide, plain⟩
  rw [(h.append_query starts).ofChars, h.ofChars, takeWhile_of_not_mem none, String.toList_append, starts,
    takeWhile_of_not_mem noFragment, takeWhile_append_mark, behind?_append]

/-! ### Addresses with another query -/

/-- Query and fragment have no part in what else comes of an address. -/
theorem normalize_with (parts : Parts) (query fragment : Option (List Char)) :
    { parts with query, fragment }.normalize = parts.normalize.map fun a ↦ { a with
      query := query.map (percentEncode outsideQuery)
      fragment := fragment.map (percentEncode outsideFragment) } := by
  unfold Parts.normalize
  dsimp only
  cases normalizeHost (splitAuthority parts.authority).2.1 with
  | error e => rfl
  | ok host =>
    cases normalizePort parts.scheme (splitAuthority parts.authority).2.2 with
    | error e => rfl
    | ok port =>
      simp only [bind, Except.bind]
      split <;> rfl

theorem of_normalize {parts : Parts} (normal : parts.normalize = .ok a) :
    a.query = parts.query.map (percentEncode outsideQuery) ∧
      a.fragment = parts.fragment.map (percentEncode outsideFragment) := by
  have again := normalize_with parts parts.query parts.fragment
  rw [normal] at again
  exact ⟨congrArg Address.query (Except.ok.inj again), congrArg Address.fragment (Except.ok.inj again)⟩

theorem percentEncode_glued (query : List Char) (before : Option (List Char)) :
    percentEncode outsideQuery (glued '?' query before) =
      glued '?' (percentEncode outsideQuery query) (before.map (percentEncode outsideQuery)) := by
  cases before with
  | none => rfl
  | some cs =>
    rw [glued, percentEncode_append, percentEncode_cons_of_safe (by decide)]
    rfl

theorem parse_eq_ok : Address.parse text = .ok a ↔
    text.toList.length ≤ mostChars ∧ (∀ c ∈ text.toList, isControl c = false) ∧
      (Parts.ofChars text.toList).normalize = .ok a := by
  unfold Address.parse
  dsimp only
  split
  · next long => simp [Nat.not_le.mpr long]
  · next short =>
    split
    · next c found =>
      have control := List.find?_some found
      have mem := List.mem_of_find?_eq_some found
      refine ⟨nofun, fun ⟨_, plain, _⟩ ↦ ?_⟩
      rw [plain c mem] at control
      cases control
    · next plain =>
      have plain : ∀ c ∈ text.toList, isControl c = false := by simpa using plain
      exact ⟨fun parsed ↦ ⟨Nat.not_lt.mp short, plain, parsed⟩, fun ⟨_, _, parsed⟩ ↦ parsed⟩

/-- The first part of a text that is an address is one too, and the same but for query and fragment if the
whole text has no other parts than these. -/
theorem exists_parse_front {query fragment : Option (List Char)}
    (parts : Parts.ofChars (front ++ more).toList = { Parts.ofChars front.toList with query, fragment })
    (parsed : Address.parse (front ++ more) = .ok target) :
    ∃ own, Address.parse front = .ok own ∧
      own.query = (Parts.ofChars front.toList).query.map (percentEncode outsideQuery) ∧
      target = { own with
        query := query.map (percentEncode outsideQuery)
        fragment := fragment.map (percentEncode outsideFragment) } := by
  obtain ⟨short, plain, normal⟩ := parse_eq_ok.mp parsed
  rw [parts, normalize_with] at normal
  obtain ⟨own, ownNormal, rfl⟩ := map_eq_ok.mp normal
  rw [String.toList_append, List.length_append] at short
  have plain : ∀ c ∈ front.toList, isControl c = false := fun c mem ↦
    plain c (String.toList_append ▸ List.mem_append_left _ mem)
  exact ⟨own, parse_eq_ok.mpr ⟨by omega, plain, ownNormal⟩, (of_normalize ownNormal).1, rfl⟩

/-- **An address with a query put behind it.** -/
theorem Rooted.parse_append (h : Rooted front) (starts : more.toList = '?' :: query) (plain : '#' ∉ query)
    (parsed : Address.parse (front ++ more) = .ok target) :
    ∃ own fragment, Address.parse front = .ok own ∧
      target = { own with
        query := if '#' ∈ front.toList then own.query
          else some (glued '?' (percentEncode outsideQuery query) own.query)
        fragment := fragment } := by
  by_cases fragment : '#' ∈ front.toList
  · obtain ⟨own, ownParsed, ownQuery, rfl⟩ :=
      exists_parse_front (h.ofChars_append_of_fragment starts fragment) parsed
    exact ⟨own, _, ownParsed, by rw [if_pos fragment, ownQuery]⟩
  · obtain ⟨own, ownParsed, ownQuery, rfl⟩ :=
      exists_parse_front (h.ofChars_append_query starts fragment plain) parsed
    exact ⟨own, _, ownParsed, by
      rw [if_neg fragment, ownQuery, Option.map_some, percentEncode_glued]⟩

/-! ### Targets with a query -/

theorem withPathAndQuery_eq (a : Address) (cs : List Char) :
    a.withPathAndQuery cs =
      Parts.normalize ⟨a.scheme, a.authority, cs.takeWhile (· != '?'), behind? '?' cs, a.fragment⟩ :=
  congrArg (fun query ↦
    Parts.normalize ⟨a.scheme, a.authority, cs.takeWhile (· != '?'), query, a.fragment⟩)
    (behind_question cs)

theorem normalize_glued (parts : Parts) (query : List Char) :
    { parts with query := some (glued '?' query parts.query) }.normalize =
      parts.normalize.map fun a ↦
        { a with query := some (glued '?' (percentEncode outsideQuery query) a.query) } := by
  refine (normalize_with parts _ parts.fragment).trans ?_
  cases normal : parts.normalize with
  | error e => rfl
  | ok a =>
    obtain ⟨query, fragment⟩ := of_normalize normal
    rw [Except.map, Except.map, query, fragment, Option.map_some, percentEncode_glued]

theorem withPathAndQuery_append (a : Address) (cs query : List Char) :
    a.withPathAndQuery (cs ++ '?' :: query) = (a.withPathAndQuery cs).map fun b ↦
      { b with query := some (glued '?' (percentEncode outsideQuery query) b.query) } := by
  rw [withPathAndQuery_eq, withPathAndQuery_eq, takeWhile_append_mark, behind?_append]
  exact normalize_glued
    ⟨a.scheme, a.authority, cs.takeWhile (· != '?'), behind? '?' cs, a.fragment⟩ query

theorem pathAndQuery_glued (own : Address) (query : List Char) (fragment : Option (List Char)) :
    { own with query := some (glued '?' query own.query), fragment }.pathAndQuery =
      own.pathAndQuery ++ '?' :: query := by
  unfold Address.pathAndQuery
  cases own.query with
  | none => simp [glued]
  | some before => simp [glued]

theorem dropWhile_append_stop {test : Char → Bool} (stop : test c = false) (cs more : List Char) :
    (cs ++ c :: more).dropWhile test = cs.dropWhile test ++ c :: more := by
  induction cs with
  | nil => rw [List.nil_append, List.dropWhile_cons, stop]; rfl
  | cons d cs ih =>
    rw [List.cons_append, List.dropWhile_cons, List.dropWhile_cons, ih]
    split <;> rfl

/-- The fragment of a target that tells no server is lost. -/
theorem join_with_fragment (relative : own.isAbsolute = false) (base : Address)
    (fragment : Option (List Char)) : base.join { own with fragment } = base.join own := by
  have still : Address.isAbsolute { own with fragment } = false := relative
  rw [Address.join, Address.join, still, relative]
  rfl

theorem join_glued (relative : own.isAbsolute = false) (base : Address) (query : List Char)
    (fragment : Option (List Char)) :
    base.join { own with query := some (glued '?' query own.query), fragment } =
      (base.join own).map fun b ↦
        { b with query := some (glued '?' (percentEncode outsideQuery query) b.query) } := by
  have still : Address.isAbsolute { own with query := some (glued '?' query own.query), fragment } = false :=
    relative
  rw [Address.join, Address.join, still, relative, if_neg Bool.false_ne_true, if_neg Bool.false_ne_true,
    pathAndQuery_glued, dropWhile_append_stop rfl, ← List.append_assoc, withPathAndQuery_append]

/-- The path of an address has no question mark. -/
theorem not_mem_path {parts : Parts} (normal : parts.normalize = .ok a) : '?' ∉ a.path := by
  obtain ⟨host, -, rest⟩ := bind_eq_ok.mp normal
  obtain ⟨port, -, rest⟩ := bind_eq_ok.mp rest
  obtain ⟨_, -, rest⟩ := bind_eq_ok.mp rest
  obtain rfl := pure_eq_ok.mp rest
  intro mem
  have safe := isSafe_of_mem_percentEncode (by decide) mem
  cases safe

theorem mem_pathAndQuery_iff (path : '?' ∉ a.path) : '?' ∈ a.pathAndQuery ↔ a.query ≠ none := by
  have front : '?' ∉ if a.path.isEmpty then ['/'] else a.path := by
    split
    · decide
    · exact path
  rw [Address.pathAndQuery, List.mem_append, or_iff_right front]
  cases a.query with
  | none => simp
  | some query => simp

/-- A joined address has a query if its base or the target has one. -/
theorem query_join_eq_none {base b : Address} (basePath : '?' ∉ base.path) (path : '?' ∉ own.path)
    (relative : own.isAbsolute = false) (joined : base.join own = .ok b) :
    b.query = none ↔ base.query = none ∧ own.query = none := by
  rw [Address.join, relative, if_neg Bool.false_ne_true, withPathAndQuery_eq] at joined
  have dropped : '?' ∈ own.pathAndQuery.dropWhile (· == '/') ↔ '?' ∈ own.pathAndQuery :=
    ⟨fun mem ↦ (List.dropWhile_sublist _).subset mem, fun mem ↦ Text.mem_dropWhile mem rfl⟩
  rw [(of_normalize joined).1, Option.map_eq_none_iff, behind?_eq_none_iff, List.mem_append, not_or,
    dropped, mem_pathAndQuery_iff basePath, mem_pathAndQuery_iff path, not_not, not_not]

namespace Gateway

theorem addressOf_resource (gateway : Gateway) :
    gateway.addressOf "" = Address.parse gateway.resourcePath >>= gateway.base.join := rfl

/-- The address of a resource has a query if its path or the base address has one. -/
theorem query_addressOf_eq_none (rooted : Rooted gateway.resourcePath) (path : '?' ∉ gateway.base.path)
    (noFragment : '#' ∉ gateway.resourcePath.toList) (found : gateway.addressOf "" = .ok a) :
    a.query = none ↔ gateway.base.query = none ∧ '?' ∉ gateway.resourcePath.toList := by
  rw [addressOf_resource] at found
  obtain ⟨own, parsed, joined⟩ := bind_eq_ok.mp found
  have relative := (not_isAbsolute_of_rooted rooted parsed).2.2
  have normal := (parse_eq_ok.mp parsed).2.2
  rw [query_join_eq_none path (not_mem_path normal) relative joined, (of_normalize normal).1,
    Option.map_eq_none_iff, rooted.ofChars, takeWhile_of_not_mem noFragment, behind?_eq_none_iff]

/-- **Where the query of a target goes.** A query for a resource whose path has a fragment is lost, as it
becomes part of the fragment. Any other one is glued to the query of the resource. -/
theorem addressOf_query (rooted : Rooted gateway.resourcePath) (starts : path.toList = '?' :: query)
    (trimmed : Text.trim path = path) (plain : '#' ∉ query) (found : gateway.addressOf path = .ok a) :
    ∃ own, gateway.addressOf "" = .ok own ∧
      a = if '#' ∈ gateway.resourcePath.toList then own
        else { own with query := some (glued '?' (percentEncode outsideQuery query) own.query) } := by
  have full : path.isEmpty = false := by
    rw [← Bool.not_eq_true, String.isEmpty_iff, ← String.toList_inj, starts]
    exact List.cons_ne_nil _ _
  have begins : Text.beginsWith "?" path = true := by
    rw [beginsWith_iff rfl, starts]
    rfl
  have target_eq : target gateway.resourcePath path = gateway.resourcePath ++ path := by
    unfold target
    dsimp only
    rw [trimmed, full, if_neg Bool.false_ne_true, if_pos begins]
  obtain ⟨target, parsed, joined⟩ := bind_eq_ok.mp found
  rw [target_eq] at parsed
  obtain ⟨own, fragment, ownParsed, rfl⟩ := rooted.parse_append starts plain parsed
  have relative := (not_isAbsolute_of_rooted rooted ownParsed).2.2
  have resource : gateway.addressOf "" = gateway.base.join own := by
    rw [addressOf_resource, ownParsed]
    rfl
  rw [resource]
  by_cases hash : '#' ∈ gateway.resourcePath.toList
  · rw [if_pos hash] at joined
    exact ⟨a, (join_with_fragment relative _ fragment).symm.trans joined, by rw [if_pos hash]⟩
  · rw [if_neg hash, join_glued relative] at joined
    obtain ⟨b, ownJoined, rfl⟩ := map_eq_ok.mp joined
    exact ⟨b, ownJoined, by rw [if_neg hash, percentEncode_percentEncode]⟩

/-- The base address of a gateway has no question mark in its path. -/
theorem not_mem_path_make (made : make baseUrl path = .ok gateway) : '?' ∉ gateway.base.path := by
  obtain ⟨upstream, parsed, asBase⟩ := bind_eq_ok.mp (make_eq_ok made).2
  rw [Address.asBase] at asBase
  split at asBase
  · cases asBase
    exact not_mem_path (parse_eq_ok.mp parsed).2.2
  · exact not_mem_path asBase

/-- The path that is kept has the characters of the given one, but for blanks at its ends. -/
theorem mem_keptPath_iff (plain : Text.isBlank c = false) (other : c ≠ '/') :
    c ∈ (keptPath path).toList ↔ c ∈ path.toList := by
  have kept : c ∈ (Text.trim path).toList ↔ c ∈ path.toList := by
    rw [Text.trim, String.toList_ofList]
    exact ⟨fun mem ↦ Text.trimChars_subset _ mem, fun mem ↦ Text.mem_trimChars mem plain⟩
  unfold keptPath
  dsimp only
  split
  · next empty =>
    rw [← kept, String.isEmpty_iff.mp empty]
    simp [other]
  · exact kept

end Gateway

/-! ### Parameters -/

theorem splitAt_append {separator : Char} (none : separator ∉ rest) (cs : List Char) : ∃ front last,
    Text.splitAt separator cs = front ++ [last] ∧
      Text.splitAt separator (cs ++ rest) = front ++ [last ++ rest] := by
  induction cs with
  | nil => exact ⟨[], [], rfl, splitAt_of_not_mem none⟩
  | cons c cs ih =>
    obtain ⟨front, last, whole, longer⟩ := ih
    rw [List.cons_append, Text.splitAt, Text.splitAt, whole, longer]
    cases front with
    | nil =>
      dsimp only [List.nil_append]
      split
      · exact ⟨[[]], last, rfl, rfl⟩
      · exact ⟨[], c :: last, rfl, rfl⟩
    | cons part parts =>
      dsimp only [List.cons_append]
      split
      · exact ⟨[] :: part :: parts, last, rfl, rfl⟩
      · exact ⟨(c :: part) :: parts, last, rfl, rfl⟩

namespace Address

variable {name : String} {value : List Char}

/-- The value in a part of a query that gives a parameter of this name. -/
def valueIn? (name : String) (part : List Char) : Option String :=
  if (name.toList ++ ['=']).isPrefixOf part then some (String.ofList (part.drop (name.length + 1))) else none

/-- The first parameter of a name among those that end with an ampersand. -/
def closedParameter? (a : Address) (name : String) : Option String :=
  a.query.bind fun query ↦ (Text.splitAt '&' query).dropLast.findSome? (valueIn? name)

theorem valueIn?_pair (name : String) (value : List Char) :
    valueIn? name (name.toList ++ '=' :: value) = some (String.ofList value) := by
  have long : (name.toList ++ ['=']).length = name.length + 1 := by
    rw [List.length_append, String.length_toList, List.length_singleton]
  have begins : (name.toList ++ ['=']).isPrefixOf (name.toList ++ '=' :: value) = true :=
    List.isPrefixOf_iff_prefix.mpr ⟨value, List.append_assoc _ _ _⟩
  have split : name.toList ++ '=' :: value = (name.toList ++ ['=']) ++ value := by
    rw [List.append_assoc]
    rfl
  rw [valueIn?, if_pos begins, split, ← long, List.drop_left]

/-- A value that is glued to another part of a query is read, if at all, with what stands before it. -/
theorem valueIn?_glued_ne (name : String) (part value : List Char) :
    valueIn? name (part ++ '?' :: (name.toList ++ '=' :: value)) ≠ some (String.ofList value) := by
  intro read
  rw [valueIn?] at read
  split at read
  · have shorter := congrArg List.length (String.ofList_inj.mp (Option.some.inj read))
    simp only [List.length_drop, List.length_append, List.length_cons, String.length_toList] at shorter
    omega
  · cases read

/-- **A parameter that is glued to a query** is read if there was no query before, or if an earlier
parameter has the same value. -/
theorem parameter?_glued (plainName : '&' ∉ name.toList) (plain : '&' ∉ value) :
    parameter? { a with query := some (glued '?' (name.toList ++ '=' :: value) a.query) } name =
        some (String.ofList value) ↔
      a.query = none ∨ a.closedParameter? name = some (String.ofList value) := by
  have noMark : '&' ∉ name.toList ++ '=' :: value := by
    rw [List.mem_append, List.mem_cons, not_or, not_or]
    exact ⟨plainName, by decide, plain⟩
  have behind : '&' ∉ '?' :: (name.toList ++ '=' :: value) := by
    rw [List.mem_cons, not_or]
    exact ⟨by decide, noMark⟩
  have parameter (b : Address) : b.parameter? name = b.query.bind fun query ↦
      (Text.splitAt '&' query).findSome? (valueIn? name) := rfl
  rw [parameter, closedParameter?, Option.bind_some]
  cases a.query with
  | none =>
    rw [glued, splitAt_of_not_mem noMark, List.findSome?_singleton, valueIn?_pair]
    simp
  | some query =>
    obtain ⟨front, last, whole, longer⟩ := splitAt_append behind query
    rw [glued, longer, Option.bind_some, whole, List.dropLast_concat, List.findSome?_append,
      List.findSome?_singleton]
    have other := valueIn?_glued_ne name last value
    cases front.findSome? (valueIn? name) with
    | none => simpa using other
    | some found => simp

end Address

end VerbForms.Remote
