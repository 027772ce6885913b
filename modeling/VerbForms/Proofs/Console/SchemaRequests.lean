import VerbForms.Proofs.Console.Fresh
import VerbForms.Proofs.Remote.Queries

/-!
# Requests for schemas

The panels of a console ask for their schemas at the address of the resource, with their verbs as the
parameter `method`. The parameter is put behind the path as text: it is lost in the fragment of a path that
has one, and it is no parameter of its own behind a query. What the other side reads is therefore the verb
only where the path is plain, or where the path has the parameter already
(`Console.schema_request_names_verb_iff`).
-/

namespace VerbForms

variable {given path baseUrl verb other : String} {verbs : List String} {console : Console} {panel : Panel}
  {request : Remote.Request} {c : Char}

/-! ### Words -/

/-- A verb made of letters; beyond ASCII all characters but blanks may stand for letters. -/
def IsWord (verb : String) : Prop :=
  ∀ c ∈ verb.toList, c.isAlpha = true ∨ 128 ≤ c.toNat ∧ Text.isBlank c = false

theorem isWord_of_letters (letters : verb.toList.all Char.isAlpha = true) : IsWord verb :=
  fun c mem ↦ .inl (List.all_eq_true.mp letters c mem)

theorem toNat_of_isAlpha (letter : c.isAlpha = true) :
    65 ≤ c.toNat ∧ c.toNat ≤ 90 ∨ 97 ≤ c.toNat ∧ c.toNat ≤ 122 := by
  refine (Bool.or_eq_true_iff.mp letter).imp (fun upper ↦ ?_) fun lower ↦ ?_
  · obtain ⟨first, last⟩ := of_decide_eq_true upper
    exact ⟨first, last⟩
  · obtain ⟨first, last⟩ := Bool.and_eq_true_iff.mp lower
    exact ⟨of_decide_eq_true first, of_decide_eq_true last⟩

theorem IsWord.isBlank (word : IsWord verb) (mem : c ∈ verb.toList) : Text.isBlank c = false := by
  rcases word c mem with letter | ⟨-, plain⟩
  · have number := toNat_of_isAlpha letter
    simp [Text.isBlank]
    omega
  · exact plain

/-- A word has no sign of ASCII. -/
theorem IsWord.not_mem (word : IsWord verb) (sign : c.isAlpha = false) (ascii : c.toNat < 128) :
    c ∉ verb.toList := by
  intro mem
  rcases word c mem with letter | ⟨foreign, -⟩
  · rw [sign] at letter
    cases letter
  · omega

/-- The verb as a query can hold it. -/
def queryText (verb : String) : String :=
  String.ofList (Remote.percentEncode Remote.outsideQuery verb.toList)

/-- Letters of ASCII stand in a query as they are. -/
theorem queryText_of_letters (letters : verb.toList.all Char.isAlpha = true) : queryText verb = verb := by
  have safe : ∀ c ∈ verb.toList, Remote.isSafe Remote.outsideQuery c = true := by
    intro c mem
    have number := toNat_of_isAlpha (List.all_eq_true.mp letters c mem)
    simp [Remote.isSafe, Remote.outsideQuery, ← Char.toNat_inj]
    omega
  rw [queryText, Remote.percentEncode_of_safe safe, String.ofList_toList]

theorem toList_queryText (verb : String) :
    (queryText verb).toList = Remote.percentEncode Remote.outsideQuery verb.toList :=
  String.toList_ofList

/-- Two words that stand alike in a query are the same. -/
theorem IsWord.eq_of_queryText_eq (word : IsWord verb) (word' : IsWord other)
    (same : queryText verb = queryText other) : verb = other := by
  have chars := String.ofList_inj.mp same
  exact String.toList_inj.mp (Remote.eq_of_percentEncode_eq (word.not_mem rfl (by decide))
    (word'.not_mem rfl (by decide)) chars)

theorem IsWord.not_mem_queryText (word : IsWord verb) : '&' ∉ (queryText verb).toList := by
  intro mem
  rw [toList_queryText] at mem
  rcases Remote.mem_percentEncode mem with ⟨given, -⟩ | escape
  · exact word.not_mem rfl (by decide) given
  · exact absurd escape (by decide)

/-! ### What the panels of a console ask for -/

/-- What a panel of a console with several verbs adds to the resource. -/
theorem Panel.toList_schemaQuery (several : panel.single = false) :
    panel.schemaQuery.toList = '?' :: ("method".toList ++ '=' :: panel.verb.toList) := by
  rw [schemaQuery, several]
  exact String.toList_append

/-- The query for a word has no blanks. -/
theorem Panel.trim_schemaQuery (several : panel.single = false) (word : IsWord panel.verb) :
    Text.trim panel.schemaQuery = panel.schemaQuery := by
  have sign : "?method=".toList.all (Text.isBlank · == false) = true := by decide
  have chars : panel.schemaQuery.toList = "?method=".toList ++ panel.verb.toList :=
    toList_schemaQuery several
  have plain : ∀ c ∈ panel.schemaQuery.toList, Text.isBlank c = false := by
    intro c mem
    rw [chars] at mem
    rcases List.mem_append.mp mem with here | letter
    · exact beq_iff_eq.mp (List.all_eq_true.mp sign c here)
    · exact word.isBlank letter
  rw [Text.trim, Remote.trimChars_of_plain plain, String.ofList_toList]

namespace Console

/-- A console that is built for several verbs has panels for several verbs, and a gateway to its path. -/
theorem of_build (built : build baseUrl path verbs false = .ok console) :
    Remote.Gateway.make baseUrl path = .ok console.gateway ∧
      ∀ panel ∈ console.panels, panel.single = false := by
  rw [build] at built
  split at built
  · next gateway opened =>
    obtain rfl := make_eq_ok built
    refine ⟨opened, fun panel mem ↦ ?_⟩
    obtain ⟨verb, -, rfl⟩ := List.mem_map.mp mem
    rfl
  · cases built

/-- **The request for the schema of a panel.** Its address is that of the resource if the path has a
fragment. Otherwise the verb is glued to the query of that address. -/
theorem schema_request_eq (rooted : Remote.Rooted path) (built : build baseUrl path verbs false = .ok console)
    (mem : panel ∈ console.panels) (word : IsWord panel.verb)
    (sent : console.gateway.request "GET" Remote.schemaMime panel.schemaQuery .null = .ok request) :
    ∃ own, console.gateway.addressOf "" = .ok own ∧
      request = ⟨Text.upper "GET",
        if '#' ∈ path.toList then own
        else { own with
          query := some (Remote.glued '?' ("method".toList ++ '=' :: (queryText panel.verb).toList) own.query) },
        Remote.schemaMime, Remote.Gateway.bodyText .null⟩ := by
  obtain ⟨opened, several⟩ := of_build built
  have several := several panel mem
  have kept := (Remote.Gateway.make_eq_ok opened).1
  have hash : '#' ∈ console.gateway.resourcePath.toList ↔ '#' ∈ path.toList := by
    rw [kept]
    exact Remote.Gateway.mem_keptPath_iff rfl (by decide)
  have noHash : '#' ∉ "method".toList ++ '=' :: panel.verb.toList := by
    rw [List.mem_append, List.mem_cons, not_or, not_or]
    exact ⟨by decide, by decide, word.not_mem rfl (by decide)⟩
  have encoded : Remote.percentEncode Remote.outsideQuery ("method".toList ++ '=' :: panel.verb.toList) =
      "method".toList ++ '=' :: (queryText panel.verb).toList := by
    have name : Remote.percentEncode Remote.outsideQuery "method".toList = "method".toList := by decide
    rw [Remote.percentEncode_append, Remote.percentEncode_cons_of_safe (by decide), toList_queryText, name]
  obtain ⟨address, found, rfl⟩ := Remote.Gateway.request_eq_ok sent
  obtain ⟨own, resource, rfl⟩ := Remote.Gateway.addressOf_query (kept ▸ rooted.keptPath)
    (Panel.toList_schemaQuery several) (Panel.trim_schemaQuery several word) noHash found
  refine ⟨own, resource, ?_⟩
  simp only [hash, encoded]

/-- The address of a resource whose path has no fragment has a query if the path or the base address has
one. -/
theorem query_resource_eq_none {own : Remote.Address} (rooted : Remote.Rooted path)
    (built : build baseUrl path verbs false = .ok console) (noFragment : '#' ∉ path.toList)
    (resource : console.gateway.addressOf "" = .ok own) :
    own.query = none ↔ '?' ∉ path.toList ∧ console.gateway.base.query = none := by
  have opened := (of_build built).1
  have kept := (Remote.Gateway.make_eq_ok opened).1
  have noHash : '#' ∉ console.gateway.resourcePath.toList := by
    rwa [kept, Remote.Gateway.mem_keptPath_iff rfl (by decide)]
  rw [Remote.Gateway.query_addressOf_eq_none (kept ▸ rooted.keptPath)
    (Remote.Gateway.not_mem_path_make opened) noHash resource, kept,
    Remote.Gateway.mem_keptPath_iff rfl (by decide), and_comm]

/-- **The other side reads the verb of a schema request only behind plain paths.** Consider a console with
several verbs under a path that the host accepts, and a panel with a word as its verb. If the path has a
fragment, the request for the schema goes to the address of the resource, whatever the verb; the first
parameter `method` is the verb if the address of the resource says so. If it has none, the first parameter
`method` is the verb exactly if neither the path nor the base address has a query, or if the query of the
resource gives the same parameter already, with an ampersand behind it. The requests of two panels are the
same exactly if the path has a fragment. -/
theorem schema_request_names_verb_iff (named : Host.normalizeResource given = .ok path)
    (built : build baseUrl path verbs false = .ok console) (mem : panel ∈ console.panels)
    (word : IsWord panel.verb)
    (sent : console.gateway.request "GET" Remote.schemaMime panel.schemaQuery .null = .ok request) :
    ∃ own, console.gateway.addressOf "" = .ok own ∧
      (request.address.parameter? "method" = some (queryText panel.verb) ↔
        if '#' ∈ path.toList then own.parameter? "method" = some (queryText panel.verb)
        else '?' ∉ path.toList ∧ console.gateway.base.query = none ∨
          own.closedParameter? "method" = some (queryText panel.verb)) ∧
      ∀ other ∈ console.panels, IsWord other.verb → other.verb ≠ panel.verb → ∀ otherRequest,
        console.gateway.request "GET" Remote.schemaMime other.schemaQuery .null = .ok otherRequest →
          (otherRequest = request ↔ '#' ∈ path.toList) := by
  have rooted := Remote.rooted_of_normalizeResource named
  obtain ⟨own, resource, rfl⟩ := schema_request_eq rooted built mem word sent
  refine ⟨own, resource, ?_, fun other otherMem otherWord apart otherRequest otherSent ↦ ?_⟩
  · by_cases hash : '#' ∈ path.toList
    · simp only [if_pos hash]
    · have read := Remote.Address.parameter?_glued (a := own) (by decide : '&' ∉ "method".toList)
        word.not_mem_queryText
      rw [String.ofList_toList, query_resource_eq_none rooted built hash resource] at read
      simp only [if_neg hash]
      exact read
  · obtain ⟨own', resource', rfl⟩ := schema_request_eq rooted built otherMem otherWord otherSent
    obtain rfl := Except.ok.inj (resource.symm.trans resource')
    refine ⟨fun same ↦ ?_, fun hash ↦ by rw [if_pos hash, if_pos hash]⟩
    by_contra hash
    rw [if_neg hash, if_neg hash] at same
    have queries := congrArg (fun request : Remote.Request ↦ request.address.query) same
    have pairs := Remote.glued_inj (Option.some.inj queries)
    have texts : (queryText other.verb).toList = (queryText panel.verb).toList :=
      (List.cons.inj (List.append_cancel_left pairs)).2
    exact apart (otherWord.eq_of_queryText_eq word (String.toList_inj.mp texts))

/-- A console for two verbs under a path of a site. -/
def exampleConsole (path : String) : Console :=
  ofPanels path false [.make "GET" path false, .make "POST" path false]
    ⟨⟨"https".toList, [], "upstream.test".toList, none, "/".toList, none, none⟩, path, false⟩

/-- Behind a plain path the verb is read, and the requests for two verbs differ. -/
theorem plain_path_names_post : ∃ console get post getRequest postRequest,
    Host.normalizeResource "a" = .ok "/a" ∧
      build "https://upstream.test" "/a" ["get", "post"] false = .ok console ∧
      get ∈ console.panels ∧ post ∈ console.panels ∧ get.verb = "GET" ∧ post.verb = "POST" ∧
      console.gateway.request "GET" Remote.schemaMime get.schemaQuery .null = .ok getRequest ∧
      console.gateway.request "GET" Remote.schemaMime post.schemaQuery .null = .ok postRequest ∧
      postRequest.address.parameter? "method" = some "POST" ∧ getRequest ≠ postRequest := by
  have named : Host.normalizeResource "a" = .ok "/a" := by with_unfolding_all rfl
  have built : build "https://upstream.test" "/a" ["get", "post"] false = .ok (exampleConsole "/a") := by
    with_unfolding_all rfl
  have getMem : Panel.make "GET" "/a" false ∈ (exampleConsole "/a").panels := List.mem_cons_self
  have postMem : Panel.make "POST" "/a" false ∈ (exampleConsole "/a").panels :=
    List.mem_cons_of_mem _ List.mem_cons_self
  have getVerb : (Panel.make "GET" "/a" false).verb = "GET" := by with_unfolding_all rfl
  have postVerb : (Panel.make "POST" "/a" false).verb = "POST" := by with_unfolding_all rfl
  have letters : "POST".toList.all Char.isAlpha = true := by decide
  have getWord : IsWord (Panel.make "GET" "/a" false).verb :=
    isWord_of_letters (by rw [getVerb]; decide)
  have postWord : IsWord (Panel.make "POST" "/a" false).verb := isWord_of_letters (by rwa [postVerb])
  have getSent : (exampleConsole "/a").gateway.request "GET" Remote.schemaMime
      (Panel.make "GET" "/a" false).schemaQuery .null =
        .ok ⟨"GET", ⟨"https".toList, [], "upstream.test".toList, none, "/a".toList,
          some "method=GET".toList, none⟩, Remote.schemaMime, none⟩ := by with_unfolding_all rfl
  have postSent : (exampleConsole "/a").gateway.request "GET" Remote.schemaMime
      (Panel.make "POST" "/a" false).schemaQuery .null =
        .ok ⟨"GET", ⟨"https".toList, [], "upstream.test".toList, none, "/a".toList,
          some "method=POST".toList, none⟩, Remote.schemaMime, none⟩ := by with_unfolding_all rfl
  obtain ⟨own, -, reads, differ⟩ := schema_request_names_verb_iff named built postMem postWord postSent
  rw [if_neg (by decide), postVerb, queryText_of_letters letters] at reads
  refine ⟨_, _, _, _, _, named, built, getMem, postMem, getVerb, postVerb, getSent, postSent,
    reads.mpr (.inl ⟨by decide, rfl⟩), fun same ↦ ?_⟩
  have apart : (Panel.make "GET" "/a" false).verb ≠ (Panel.make "POST" "/a" false).verb := by
    rw [getVerb, postVerb]
    decide
  exact absurd ((differ _ getMem getWord apart _ getSent).mp same) (by decide)

/-- Behind a path with a fragment no verb is read, and the requests for two verbs are the same. -/
theorem exists_schema_request_without_verb : ∃ console get post request,
    Host.normalizeResource "/a#top" = .ok "/a#top" ∧
      build "https://upstream.test" "/a#top" ["GET", "POST"] false = .ok console ∧
      console.panels = [get, post] ∧ get.verb = "GET" ∧ post.verb = "POST" ∧
      console.gateway.request "GET" Remote.schemaMime get.schemaQuery .null = .ok request ∧
      console.gateway.request "GET" Remote.schemaMime post.schemaQuery .null = .ok request ∧
      request.address.parameter? "method" = none := by
  have named : Host.normalizeResource "/a#top" = .ok "/a#top" := by with_unfolding_all rfl
  have built : build "https://upstream.test" "/a#top" ["GET", "POST"] false =
      .ok (exampleConsole "/a#top") := by with_unfolding_all rfl
  have sent (verb : String) (known : verb = "GET" ∨ verb = "POST") :
      (exampleConsole "/a#top").gateway.request "GET" Remote.schemaMime
        (Panel.make verb "/a#top" false).schemaQuery .null =
          .ok ⟨"GET", ⟨"https".toList, [], "upstream.test".toList, none, "/a".toList, none, none⟩,
            Remote.schemaMime, none⟩ := by
    rcases known with rfl | rfl <;> with_unfolding_all rfl
  exact ⟨_, _, _, _, named, built, rfl, by with_unfolding_all rfl, by with_unfolding_all rfl,
    sent "GET" (.inl rfl), sent "POST" (.inr rfl), rfl⟩

end Console

end VerbForms
