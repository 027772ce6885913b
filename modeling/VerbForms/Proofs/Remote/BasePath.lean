import VerbForms.Proofs.Remote.DotSegments
import VerbForms.Proofs.Remote.Resource

/-!
# Paths below a base

The path of a base address is a root and names, each behind a slash. The path of a request for a resource is
put behind it, and then the dot segments go, so that the request goes to the place that the course of the
resource leads to from the names of the base (`Gateway.path_addressOf`). Where the base address has a query,
the resource belongs to the query and the path is that of the base.
-/

namespace VerbForms.Remote

open Text (splitAt)

variable {gateway : Gateway} {a b own target base : Address} {parts : Parts} {baseUrl resource path : String}
  {cs rest segment front excluded : List Char}

/-! ### Segments of encoded paths -/

theorem splitAt_percentEncode (excluded cs : List Char) (safe : isSafe excluded '/' = true) :
    splitAt '/' (percentEncode excluded cs) = (splitAt '/' cs).map (percentEncode excluded) := by
  refine Text.splitAt_flatMap (if_pos safe) (fun c other mem ↦ ?_) cs
  split at mem
  · exact other (List.mem_singleton.mp mem).symm
  · obtain ⟨byte, -, escape⟩ := List.mem_flatMap.mp mem
    exact absurd (mem_escapeChars escape) (by decide)

/-- What stands for a character that has to be encoded begins with a percent sign. -/
theorem exists_percentEncode_cons {c : Char} (outside : ¬isSafe excluded c = true) (cs : List Char) :
    ∃ rest, percentEncode excluded (c :: cs) = '%' :: rest := by
  have some : String.utf8EncodeChar c ≠ [] := by
    rw [← List.length_pos_iff, String.length_utf8EncodeChar]
    exact c.utf8Size_pos
  obtain ⟨byte, bytes, encoded⟩ := List.exists_cons_of_ne_nil some
  rw [percentEncode, List.flatMap_cons, if_neg outside, encoded]
  exact ⟨_, rfl⟩

/-- A text that has no percent sign when it is encoded was not changed. -/
theorem percentEncode_of_not_mem (none : '%' ∉ percentEncode excluded cs) :
    percentEncode excluded cs = cs := by
  induction cs with
  | nil => rfl
  | cons c cs ih =>
    by_cases safe : isSafe excluded c = true
    · rw [percentEncode_cons_of_safe safe] at none ⊢
      rw [ih fun mem ↦ none (List.mem_cons_of_mem _ mem)]
    · obtain ⟨rest, encoded⟩ := exists_percentEncode_cons safe cs
      rw [encoded] at none
      exact absurd List.mem_cons_self none

/-- A text whose encoding begins with a slash begins with it too. -/
theorem head?_of_percentEncode (first : (percentEncode excluded cs).head? = some '/') :
    cs.head? = some '/' := by
  cases cs with
  | nil => cases first
  | cons c cs =>
    by_cases safe : isSafe excluded c = true
    · rwa [percentEncode_cons_of_safe safe] at first
    · obtain ⟨rest, encoded⟩ := exists_percentEncode_cons safe cs
      rw [encoded] at first
      cases first

theorem isDot_percentEncode (dot : IsDot (percentEncode excluded segment)) : IsDot segment := by
  have none : '%' ∉ percentEncode excluded segment := by
    rcases dot with same | same <;> rw [same] <;> decide
  rwa [percentEncode_of_not_mem none] at dot

/-- The first segment of a path is empty where the path is empty or begins with a slash. -/
theorem exists_splitAt (rooted : cs = [] ∨ cs.head? = some '/') :
    ∃ segments, splitAt '/' cs = [] :: segments := by
  rcases rooted with rfl | slash
  · exact ⟨[], rfl⟩
  · obtain ⟨rest, rfl⟩ := List.head?_eq_some_iff.mp slash
    exact ⟨_, Text.splitAt_cons_self _ _⟩

/-! ### Paths in normal form -/

/-- A path in normal form, as a request shows it. -/
structure NormalPath (path : List Char) : Prop where
  rooted : path.head? = some '/'
  safe : ∀ c ∈ path, isSafe outsidePath c = true
  plain : ∀ segment ∈ splitAt '/' path, ¬IsDot segment

theorem normalPath_root : NormalPath ['/'] where
  rooted := rfl
  safe c mem := by
    rw [List.mem_singleton.mp mem]
    rfl
  plain := List.forall_mem_cons.mpr ⟨by decide, List.forall_mem_singleton.mpr (by decide)⟩

/-- Nothing is left to be done for a path in normal form. -/
theorem NormalPath.again (h : NormalPath cs) : percentEncode outsidePath (normalizePath cs) = cs := by
  rw [normalizePath_eq, dropDots_of_plain h.plain, List.nil_append, Text.intercalate_splitAt,
    percentEncode_of_safe h.safe]

theorem NormalPath.shown_eq (h : NormalPath cs) : shown cs = cs := by
  obtain ⟨rest, rfl⟩ := List.head?_eq_some_iff.mp h.rooted
  rfl

theorem NormalPath.append_slash (h : NormalPath cs) : NormalPath (cs ++ ['/']) := by
  refine ⟨?_, fun c mem ↦ ?_, fun segment mem ↦ ?_⟩
  · rw [List.head?_append, h.rooted]
    rfl
  · rcases List.mem_append.mp mem with front | slash
    · exact h.safe c front
    · rw [List.mem_singleton.mp slash]
      decide
  · rw [Text.splitAt_append_cons] at mem
    rcases List.mem_append.mp mem with front | last
    · exact h.plain segment front
    · rw [List.mem_singleton.mp last]
      decide

/-- What is left of a rooted path without its dot segments. -/
theorem exists_normalizePath (rooted : cs = [] ∨ cs.head? = some '/') : ∃ segments,
    normalizePath cs = ['/'].intercalate ([] :: segments) ∧
      ∀ segment ∈ segments, '/' ∉ segment ∧ ¬IsDot segment := by
  obtain ⟨segments, cut⟩ := exists_splitAt rooted
  have left := dropDots_rooted [] segments
  refine ⟨(Course.ofSegments segments).place [], ?_, fun segment mem ↦ ?_⟩
  · rw [normalizePath_eq, cut, ← left]
    rfl
  · have there : segment ∈ dropDots [[]] segments := left ▸ List.mem_cons_of_mem _ mem
    rcases mem_dropDots there with root | ⟨given, noDot⟩
    · rw [List.mem_singleton.mp root]
      decide
    · exact ⟨(Text.of_mem_splitAt (cut ▸ List.mem_cons_of_mem _ given)).1, noDot⟩

/-- **A path that is normalized and encoded is in normal form.** -/
theorem normalPath_shown (rooted : cs = [] ∨ cs.head? = some '/') :
    NormalPath (shown (percentEncode outsidePath (normalizePath cs))) := by
  obtain ⟨segments, normal, plain⟩ := exists_normalizePath rooted
  have parts : splitAt '/' (percentEncode outsidePath (normalizePath cs)) =
      ([] :: segments).map (percentEncode outsidePath) := by
    rw [splitAt_percentEncode _ _ rfl, normal, Text.splitAt_intercalate _ (List.cons_ne_nil _ _)]
    exact List.forall_mem_cons.mpr ⟨List.not_mem_nil, fun segment mem ↦ (plain segment mem).1⟩
  cases segments with
  | nil =>
    rw [normal]
    exact normalPath_root
  | cons first more =>
    have slash : percentEncode outsidePath (normalizePath cs) =
        '/' :: percentEncode outsidePath (['/'].intercalate (first :: more)) := by
      rw [normal, List.intercalate_cons_cons, List.nil_append, List.singleton_append,
        percentEncode_cons_of_safe rfl]
    have some : shown (percentEncode outsidePath (normalizePath cs)) =
        percentEncode outsidePath (normalizePath cs) := by
      rw [slash]
      rfl
    rw [some]
    refine ⟨by rw [slash]; rfl, fun c ↦ isSafe_of_mem_percentEncode (by decide), fun segment mem dot ↦ ?_⟩
    rw [parts] at mem
    obtain ⟨own, there, rfl⟩ := List.mem_map.mp mem
    rcases List.mem_cons.mp there with rfl | behind
    · exact dot.elim nofun nofun
    · exact (plain own behind).2 (isDot_percentEncode dot)

/-! ### Paths of addresses -/

/-- How the path of an address comes about: whether there is an authority decides if dot segments go. -/
theorem exists_path_eq (normal : parts.normalize = .ok a) : ∃ hasAuthority,
    (a.host ≠ [] → hasAuthority = true) ∧ (parts.authority = [] → hasAuthority = false) ∧
      checkPath (!parts.scheme.isEmpty) hasAuthority parts.path = .ok () ∧
      a.path = percentEncode outsidePath
        (if !parts.scheme.isEmpty || hasAuthority then normalizePath parts.path else parts.path) := by
  obtain ⟨host, hosted, rest⟩ := bind_eq_ok.mp normal
  obtain ⟨port, ported, rest⟩ := bind_eq_ok.mp rest
  obtain ⟨_, checked, rest⟩ := bind_eq_ok.mp rest
  obtain rfl := pure_eq_ok.mp rest
  refine ⟨_, fun named ↦ ?_, fun none ↦ ?_, checked, rfl⟩
  · rw [List.isEmpty_eq_false_iff.mpr named, Bool.not_false, Bool.or_true, Bool.true_or]
  · rw [none] at hosted ported ⊢
    obtain rfl : [] = host := Except.ok.inj hosted
    obtain rfl : Option.none = port := Except.ok.inj ported
    rfl

/-- An address with a host has a path without dot segments. -/
theorem path_of_normalize (normal : parts.normalize = .ok a) (named : a.host ≠ []) :
    (parts.path = [] ∨ parts.path.head? = some '/') ∧
      a.path = percentEncode outsidePath (normalizePath parts.path) := by
  obtain ⟨_, authority, -, checked, path⟩ := exists_path_eq normal
  obtain rfl := authority named
  refine ⟨?_, by rw [path, Bool.or_true, if_pos rfl]⟩
  unfold checkPath at checked
  split at checked
  · cases checked
  · next fits =>
    by_contra neither
    obtain ⟨some, other⟩ := not_or.mp neither
    exact fits (by simp [some, other])

theorem Address.SameServer.host_ne_nil (same : a.SameServer b) : b.host ≠ [] ↔ a.host ≠ [] := by
  have hosts : b.host.map Char.toLower = a.host.map Char.toLower := congrArg Server.host same.server
  have lengths := congrArg List.length hosts
  rw [List.length_map, List.length_map] at lengths
  rw [← List.length_pos_iff, ← List.length_pos_iff, lengths]

/-- The path of an address as a request has it. -/
def Address.shownPath (a : Address) : List Char := shown a.path

theorem Address.pathAndQuery_eq (a : Address) :
    a.pathAndQuery = a.shownPath ++ (a.query.map ('?' :: ·)).getD [] := rfl

theorem normalPath_of_normalize (normal : parts.normalize = .ok a) (named : a.host ≠ []) :
    NormalPath a.shownPath := by
  obtain ⟨rooted, path⟩ := path_of_normalize normal named
  rw [Address.shownPath, path]
  exact normalPath_shown rooted

theorem NormalPath.not_mem (h : NormalPath cs) : '?' ∉ cs := fun mem ↦ by
  have safe := h.safe '?' mem
  cases safe

/-- The path before a query. -/
theorem NormalPath.takeWhile (h : NormalPath cs) (query : Option (List Char)) (more : List Char) :
    (cs ++ (query.map ('?' :: ·)).getD [] ++ more).takeWhile (· != '?') =
      if query = none then cs ++ more.takeWhile (· != '?') else cs := by
  have kept : ∀ c ∈ cs, (c != '?') = true := fun c mem ↦
    bne_iff_ne.mpr fun same ↦ h.not_mem (same ▸ mem)
  cases query with
  | none => rw [if_pos rfl, Option.map_none, Option.getD_none, List.append_nil, List.takeWhile_append_of_pos kept]
  | some query =>
    rw [if_neg (by simp), Option.map_some, Option.getD_some, List.append_assoc, List.takeWhile_append_of_pos kept]
    simp

/-- **The path of a base address** is in normal form, and ends in a slash unless the address has a query. -/
theorem Gateway.normalPath_base (made : Gateway.make baseUrl resource = .ok gateway)
    (named : gateway.base.host ≠ []) :
    NormalPath gateway.base.shownPath ∧
      (gateway.base.query = none → ∃ front, gateway.base.shownPath = front ++ ['/']) := by
  obtain ⟨upstream, parsed, based⟩ := bind_eq_ok.mp (make_eq_ok made).2
  have normal := (parse_eq_ok.mp parsed).2.2
  have same := ((Address.normal_of_parse parsed).asBase based).2
  have plain := normalPath_of_normalize normal (same.host_ne_nil.mp named)
  unfold Address.asBase at based
  split at based
  · next slash =>
    cases based
    refine ⟨plain, fun none ↦ ?_⟩
    rw [Address.pathAndQuery_eq, none, Option.map_none, Option.getD_none, List.append_nil] at slash
    exact List.getLast?_eq_some_iff.mp slash
  · refine ⟨normalPath_of_normalize based named, fun none ↦ ⟨upstream.shownPath, ?_⟩⟩
    rw [withPathAndQuery_eq] at based
    have noQuery : upstream.query = .none := by
      rw [(of_normalize based).1, Option.map_eq_none_iff, behind?_eq_none_iff, List.mem_append, not_or,
        mem_pathAndQuery_iff (not_mem_path normal), not_not] at none
      exact none.1
    have path := (path_of_normalize based named).2
    have closed : (['/'].takeWhile (· != '?')) = ['/'] := rfl
    dsimp only at path
    rw [Address.pathAndQuery_eq, plain.takeWhile, if_pos noQuery, closed, plain.append_slash.again] at path
    rw [Address.shownPath, path, shown, if_neg (by simp)]

/-! ### Resources -/

/-- The path that the text of a resource has, without query and fragment. -/
def pathOf (resource : String) : List Char :=
  (resource.toList.takeWhile (· != '#')).takeWhile (· != '?')

/-- The segments of a resource as a request has them. -/
def resourceSegments (resource : String) : List (List Char) :=
  splitAt '/' (percentEncode outsidePath ((pathOf resource).drop 1))

theorem head?_takeWhile {test : Char → Bool} {c : Char} (first : (cs.takeWhile test).head? = some c) :
    cs.head? = some c := by
  cases cs with
  | nil => cases first
  | cons d cs =>
    rw [List.takeWhile_cons] at first
    split at first
    · exact first
    · cases first

/-- The path of an address that is read from a resource, without the slash at its start. -/
theorem dropWhile_path_of_rooted (rooted : Rooted resource) (parsed : Address.parse resource = .ok own) :
    own.shownPath.dropWhile (· == '/') = percentEncode outsidePath ((pathOf resource).drop 1) := by
  have normal := (parse_eq_ok.mp parsed).2.2
  rw [rooted.ofChars] at normal
  obtain ⟨_, -, authority, -, path⟩ := exists_path_eq normal
  obtain rfl := authority rfl
  have path : own.path = percentEncode outsidePath (pathOf resource) := path
  obtain ⟨rest, chars, one⟩ := rooted
  have slash : pathOf resource = '/' :: (rest.takeWhile (· != '#')).takeWhile (· != '?') := by
    rw [pathOf, chars]
    rfl
  rw [Address.shownPath, path, slash, percentEncode_cons_of_safe rfl, shown, if_neg (by simp),
    List.dropWhile_cons_of_pos rfl, List.drop_one, List.tail_cons]
  refine List.dropWhile_eq_self_iff.mpr fun some second ↦ ?_
  have second : (percentEncode outsidePath
      ((rest.takeWhile (· != '#')).takeWhile (· != '?'))).head? = Option.some '/' := by
    rw [List.head?_eq_getElem?, List.getElem?_eq_getElem some, beq_iff_eq.mp second]
  exact one (head?_takeWhile (head?_takeWhile (head?_of_percentEncode second)))

/-- The names of the path of a base address. -/
def Address.names (base : Address) : List (List Char) := (splitAt '/' base.shownPath.dropLast).drop 1

/-- A text whose segments are safe is not changed when it is encoded. -/
theorem percentEncode_of_segments (slash : isSafe excluded '/' = true)
    (safe : ∀ segment ∈ splitAt '/' cs, ∀ c ∈ segment, isSafe excluded c = true) :
    percentEncode excluded cs = cs := by
  have same : (splitAt '/' cs).map (percentEncode excluded) = splitAt '/' cs :=
    List.map_congr_left (g := id) (fun segment mem ↦ percentEncode_of_safe (safe segment mem)) |>.trans
      (List.map_id _)
  rw [← Text.intercalate_splitAt '/' (percentEncode excluded cs), splitAt_percentEncode _ _ slash, same,
    Text.intercalate_splitAt]

section Base

variable (front_eq : base.shownPath = front ++ ['/']) (normal : NormalPath base.shownPath)

include front_eq normal

theorem splitAt_front : splitAt '/' front = [] :: base.names := by
  have rooted : front = [] ∨ front.head? = some '/' := by
    have first := normal.rooted
    rw [front_eq] at first
    cases front with
    | nil => exact .inl rfl
    | cons c front => exact .inr first
  obtain ⟨names, cut⟩ := exists_splitAt rooted
  rw [Address.names, front_eq, List.dropLast_concat, cut]
  rfl

theorem dropDots_base (tail : List Char) : dropDots [] (splitAt '/' (base.shownPath ++ tail)) =
    [] :: (Course.ofSegments (splitAt '/' tail)).place base.names := by
  have cut := splitAt_front front_eq normal
  have plain : ∀ segment ∈ [] :: base.names, ¬IsDot segment := fun segment mem ↦ by
    refine normal.plain segment ?_
    rw [front_eq, Text.splitAt_append_cons, cut]
    exact List.mem_append_left _ mem
  rw [front_eq, List.append_assoc, List.singleton_append, Text.splitAt_append_cons, dropDots_append, cut,
    dropDots_of_plain plain, List.nil_append, dropDots_rooted]

/-- A place behind the names of a base has only segments of the path that leads there. -/
theorem of_mem_place {tail : List Char}
    (mem : segment ∈ [] :: (Course.ofSegments (splitAt '/' tail)).place base.names) :
    '/' ∉ segment ∧ segment ⊆ base.shownPath ++ tail := by
  rw [← dropDots_base front_eq normal] at mem
  exact Text.of_mem_splitAt ((mem_dropDots mem).elim nofun And.left)

/-- **Where a path behind that of a base leads.** -/
theorem normalizePath_append {tail : List Char} (safe : ∀ c ∈ tail, isSafe outsidePath c = true) :
    percentEncode outsidePath (normalizePath (base.shownPath ++ tail)) =
      ['/'].intercalate ([] :: (Course.ofSegments (splitAt '/' tail)).place base.names) := by
  rw [normalizePath_eq, dropDots_base front_eq normal]
  refine percentEncode_of_segments rfl fun segment mem c there ↦ ?_
  have noSlash (segment : List Char)
      (mem : segment ∈ [] :: (Course.ofSegments (splitAt '/' tail)).place base.names) : '/' ∉ segment :=
    (of_mem_place front_eq normal mem).1
  rw [Text.splitAt_intercalate noSlash (List.cons_ne_nil _ _)] at mem
  exact (List.mem_append.mp ((of_mem_place front_eq normal mem).2 there)).elim (normal.safe c) (safe c)

end Base

namespace Gateway

/-- **The path of a request for a resource** is the place where the course of the resource leads to from the
names of the base. Behind a base with a query the resource belongs to the query, and the path is that of the
base. -/
theorem path_addressOf (made : make baseUrl resource = .ok gateway) (named : gateway.base.host ≠ [])
    (rooted : Rooted gateway.resourcePath) (means : MeansResource path)
    (found : gateway.addressOf path = .ok a) :
    a.shownPath = if gateway.base.query = none then
        shown (['/'].intercalate
          ([] :: (Course.ofSegments (resourceSegments gateway.resourcePath)).place gateway.base.names))
      else gateway.base.shownPath := by
  obtain ⟨normal, ends⟩ := normalPath_base made named
  obtain ⟨own, query, fragment, parsed, joined⟩ := exists_target means found
  obtain ⟨-, -, relative⟩ := not_isAbsolute_of_rooted rooted parsed
  have server := (sameServer_make made).2.1
  have still : Address.isAbsolute { own with query, fragment } = false := relative
  rw [Address.join, still, if_neg Bool.false_ne_true] at joined
  have kept := (server.sameServer joined).2.host_ne_nil.mpr named
  rw [withPathAndQuery_eq, takeWhile_pathAndQuery] at joined
  have path := (path_of_normalize joined kept).2
  have tail := dropWhile_path_of_rooted rooted parsed
  rw [Address.shownPath, shown] at tail
  dsimp only at path
  rw [tail, Address.pathAndQuery_eq, normal.takeWhile] at path
  rw [Address.shownPath, path]
  split
  · next none =>
    obtain ⟨front, front_eq⟩ := ends none
    have safe : ∀ c ∈ percentEncode outsidePath ((pathOf gateway.resourcePath).drop 1),
        isSafe outsidePath c = true := fun c ↦ isSafe_of_mem_percentEncode (by decide)
    have plain : ∀ c ∈ percentEncode outsidePath ((pathOf gateway.resourcePath).drop 1),
        (c != '?') = true := by
      rintro c mem
      refine bne_iff_ne.mpr ?_
      rintro rfl
      cases safe '?' mem
    rw [List.takeWhile_eq_self_iff.mpr plain, normalizePath_append front_eq normal safe]
    rfl
  · rw [normal.again, normal.shown_eq]

/-- **A request for a resource stays below the base** exactly if the base has a query, or the course of the
resource stays below the names of the base. -/
theorem below_base_iff (made : make baseUrl resource = .ok gateway) (named : gateway.base.host ≠ [])
    (rooted : Rooted gateway.resourcePath) (means : MeansResource path)
    (found : gateway.addressOf path = .ok a) :
    gateway.base.shownPath <+: a.shownPath ↔ gateway.base.query ≠ none ∨
      (Course.ofSegments (resourceSegments gateway.resourcePath)).StaysBelow gateway.base.names := by
  have place := path_addressOf made named rooted means found
  obtain ⟨normal, ends⟩ := normalPath_base made named
  split at place
  · next none =>
    obtain ⟨front, front_eq⟩ := ends none
    rw [place, front_eq, or_iff_right (not_not.mpr none)]
    exact prefix_shown_iff (splitAt_front front_eq normal) fun segment mem ↦
      (of_mem_place front_eq normal (List.mem_cons_of_mem _ mem)).1
  · next some =>
    rw [place]
    exact iff_of_true List.prefix_rfl (.inl some)

/-- A request for a resource without dot segments stays below the base. -/
theorem below_base_of_plain (made : make baseUrl resource = .ok gateway) (named : gateway.base.host ≠ [])
    (rooted : Rooted gateway.resourcePath) (means : MeansResource path)
    (found : gateway.addressOf path = .ok a)
    (plain : ∀ segment ∈ resourceSegments gateway.resourcePath, ¬IsDot segment) :
    gateway.base.shownPath <+: a.shownPath :=
  (below_base_iff made named rooted means found).mpr
    (.inr (Course.staysBelow_of_plain plain (Text.splitAt_ne_nil _ _) _))

end Gateway

theorem keptPath_of_isTrimmed (trimmed : Text.IsTrimmed path.toList) (some : path.toList ≠ []) :
    Gateway.keptPath path = path := by
  have same : Text.trim path = path := by rw [Text.trim, trimmed.trimChars_eq, String.ofList_toList]
  have full : path.isEmpty = false := by
    rw [← Bool.not_eq_true, String.isEmpty_iff]
    rintro rfl
    exact some rfl
  rw [Gateway.keptPath, same, full, if_neg Bool.false_ne_true]

/-- The path of a resource has no blanks at its ends. -/
theorem keptPath_of_normalizeResource {given : String} (named : Host.normalizeResource given = .ok path) :
    Gateway.keptPath path = path := by
  unfold Host.normalizeResource at named
  dsimp only at named
  have kept : Text.IsTrimmed (if (Text.trim given).isEmpty then "/" else Text.trim given).toList ∧
      (if (Text.trim given).isEmpty then "/" else Text.trim given).toList ≠ [] := by
    split
    · refine ⟨⟨fun c first ↦ ?_, fun c last ↦ ?_⟩, by decide⟩
      · obtain rfl : '/' = c := Option.some.inj first
        rfl
      · obtain rfl : '/' = c := Option.some.inj last
        rfl
    · next full =>
      refine ⟨?_, fun none ↦ full (String.isEmpty_iff.mpr (String.toList_inj.mp none))⟩
      rw [Text.trim, String.toList_ofList]
      exact Text.isTrimmed_trimChars _
  generalize (if (Text.trim given).isEmpty then "/" else Text.trim given) = kept at named kept
  obtain ⟨trimmed, some⟩ := kept
  split at named
  · cases named
  · cases named
    split
    · exact keptPath_of_isTrimmed trimmed some
    · have slash : ("/" ++ kept).toList = '/' :: kept.toList := String.toList_append
      refine keptPath_of_isTrimmed ?_ (by simp [slash])
      rw [slash]
      exact Text.isTrimmed_cons rfl trimmed.last

end VerbForms.Remote
