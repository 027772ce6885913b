import Mathlib.Data.List.Chain
import Mathlib.Logic.Relation
import VerbForms.Proofs.Schema.BadReference
import VerbForms.Proofs.Schema.Coherence
import VerbForms.Proofs.Schema.OpenedRoot

/-!
# Reported cycles

A cyclic error names a chain of definitions. The chain is followed from the value that expansion is
at: each name on it is mentioned where the one before leads to (`Closes`), and the last one has been
passed. So the chain is a cycle of references between the definitions of the document, but for its
first link where it starts in an entry of `definitions` that `$defs` hides: such an entry is expanded
under a name that stands for another definition (`chain_of_cyclic`, `StartsHidden`).
-/

namespace VerbForms.Schema

variable {defs : Definitions} {path trail chain : List String} {document value child : Json}
variable {members entries : Members} {items : List Json} {step : Json.Step}
variable {key name next pointer : String} {target : Json}

/-! ### Mentions -/

/-- A value holds a reference to a name, at some position. -/
def Mentions (value : Json) (name : String) : Prop :=
  ∃ position pointer, (value.at? position).bind reference? = some pointer ∧ Names pointer name

/-- The definition of one name holds a reference to another one. -/
def Refers (defs : Definitions) (name next : String) : Prop :=
  ∃ target, Assoc.get? defs name = some target ∧ Mentions target next

theorem mentions_self (reference : reference? value = some pointer) (names : Names pointer name) :
    Mentions value name :=
  ⟨[], pointer, reference, names⟩

theorem Mentions.of_child (isChild : value.child? step = some child) (inside : Mentions child name) :
    Mentions value name := by
  obtain ⟨position, pointer, found, names⟩ := inside
  refine ⟨step :: position, pointer, ?_, names⟩
  rw [Json.at?_cons_of_child? isChild]
  exact found

theorem Mentions.of_item {item : Json} (mem : item ∈ items) (inside : Mentions item name) :
    Mentions (.array items) name := by
  obtain ⟨index, found⟩ := List.mem_iff_getElem?.mp mem
  have isChild : (Json.array items).child? (.item index) = some item := found
  exact inside.of_child isChild

theorem Mentions.of_member {entry : String × Json} (distinct : (Json.object members).DistinctKeys)
    (mem : entry ∈ members) (inside : Mentions entry.2 name) : Mentions (.object members) name :=
  inside.of_child (child?_of_mem distinct mem)

/-- What is free of references mentions nothing. -/
theorem ReferenceFree.not_mentions (free : ReferenceFree value) : ¬ Mentions value name := by
  rintro ⟨position, pointer, found, _⟩
  obtain ⟨part, atPosition, reference⟩ := Option.bind_eq_some_iff.mp found
  cases part with
  | object members =>
    have plain : reference? (.object members) = none := free position members atPosition
    rw [plain] at reference
    cases reference
  | _ => cases reference

/-! ### Chains that close -/

/-- A chain goes on from a trail: to a name that the value mentions, on to one that the definition of
this name mentions, and so forth, until it comes to a name that it has passed. -/
inductive Closes (defs : Definitions) : List String → Json → List String → Prop where
  | back {trail : List String} {value target : Json} {name : String} (mentions : Mentions value name)
      (known : Assoc.get? defs name = some target) (passed : name ∈ trail) :
      Closes defs trail value (trail ++ [name])
  | further {trail chain : List String} {value target : Json} {name : String}
      (mentions : Mentions value name) (known : Assoc.get? defs name = some target)
      (closes : Closes defs (trail ++ [name]) target chain) : Closes defs trail value chain

/-- Only the first step of a chain depends on the value. -/
theorem Closes.of_mentions (closes : Closes defs trail child chain)
    (more : ∀ name, Mentions child name → Mentions value name) : Closes defs trail value chain := by
  cases closes with
  | back mentions known passed => exact .back (more _ mentions) known passed
  | further mentions known closes => exact .further (more _ mentions) known closes

/-- The links of a chain behind its trail. -/
theorem Closes.exists_links (closes : Closes defs trail value chain) :
    ∃ next rest, chain = trail ++ next :: rest ∧ Mentions value next ∧
      (next :: rest).IsChain (Refers defs) ∧
      (∀ name ∈ next :: rest, ∃ target, Assoc.get? defs name = some target) ∧
      ∃ passed last, chain = passed ++ [last] ∧ last ∈ passed := by
  induction closes with
  | @back trail value target name mentions known passed =>
    refine ⟨name, [], rfl, mentions, .singleton name, ?_, trail, name, rfl, passed⟩
    intro other mem
    exact ⟨target, List.mem_singleton.mp mem ▸ known⟩
  | @further trail chain value target name mentions known _ ih =>
    obtain ⟨next, rest, rfl, inside, linked, allKnown, closed⟩ := ih
    refine ⟨name, next :: rest, by simp, mentions, ?_, ?_, closed⟩
    · exact List.isChain_cons_cons.mpr ⟨⟨target, known, inside⟩, linked⟩
    · intro other mem
      rcases List.mem_cons.mp mem with rfl | later
      · exact ⟨target, known⟩
      · exact allKnown other later

/-! ### Cyclic errors -/

theorem closes_of_aliasType (failed : aliasType defs trail target = .error (.cyclic pointer chain)) :
    Closes defs trail target chain := by
  fun_induction aliasType defs trail target with
  | case1 => cases failed
  | case2 => cases failed
  | case3 trail target untyped link isAlias e named =>
    rw [(definitionName_eq_error_iff.mp named).2] at failed
    cases failed
  | case4 => cases failed
  | case5 trail target untyped link isAlias name named next known passed =>
    obtain ⟨rfl, rfl⟩ := SchemaError.cyclic.inj (Except.error.inj failed)
    have mentions := mentions_self isAlias (definitionName_eq_ok_iff.mp named)
    exact .back mentions known passed
  | case6 trail target untyped link isAlias name named next known fresh ih =>
    have mentions := mentions_self isAlias (definitionName_eq_ok_iff.mp named)
    exact .further mentions known (ih failed)

theorem closes_of_referent {asked : String} (reference : reference? value = some asked)
    (failed : referent defs path asked = .error (.cyclic pointer chain)) :
    Closes defs path value chain := by
  unfold referent at failed
  split at failed
  · next e named =>
    rw [(definitionName_eq_error_iff.mp named).2] at failed
    cases failed
  · next name named =>
    have mentions := mentions_self reference (definitionName_eq_ok_iff.mp named)
    split at failed
    · cases failed
    · next target known =>
      split at failed
      · next passed =>
        obtain ⟨rfl, rfl⟩ := SchemaError.cyclic.inj (Except.error.inj failed)
        exact .back mentions known passed
      · split at failed
        · next ahead =>
          rw [Except.error.inj failed] at ahead
          exact .further mentions known (closes_of_aliasType ahead)
        · split at failed <;> cases failed

mutual

/-- An expansion that stops on a cycle reports a chain from its open definitions on. -/
theorem Fails.closes (known : defs.Distinct) {path : List String} {value : Json} :
    Fails defs (.cyclic pointer chain) path value → value.DistinctKeys →
      Closes defs path value chain
  | .reference reference failed, _ => closes_of_referent reference failed
  | .inlined reference replaced fails, _ => by
    obtain ⟨named, found, _, _⟩ := referent_eq_inlined_iff.mp replaced
    have inside := fails.closes known (known _ _ found)
    exact .further (mentions_self reference (definitionName_eq_ok_iff.mp named)) found inside
  | .dropped _ _ fails, distinct => by
    have left := Json.distinctKeys_object.mp (distinct.erase referenceKey)
    obtain ⟨entry, mem, inside⟩ := fails.closes known left.2
    have isMember := (Assoc.erase_sublist _ referenceKey).subset mem
    exact inside.of_mentions fun _ ↦ Mentions.of_member distinct isMember
  | .object _ fails, distinct => by
    obtain ⟨entry, mem, inside⟩ := fails.closes known (Json.distinctKeys_object.mp distinct).2
    exact inside.of_mentions fun _ ↦ Mentions.of_member distinct mem
  | .array fails, distinct => by
    obtain ⟨item, mem, inside⟩ := fails.closes known (Json.distinctKeys_array.mp distinct)
    exact inside.of_mentions fun _ ↦ Mentions.of_item mem

theorem FailsItems.closes (known : defs.Distinct) {path : List String} {items : List Json} :
    FailsItems defs (.cyclic pointer chain) path items → (∀ item ∈ items, item.DistinctKeys) →
      ∃ item ∈ items, Closes defs path item chain
  | .head fails, distinct =>
    ⟨_, List.mem_cons_self, fails.closes known (distinct _ List.mem_cons_self)⟩
  | .tail _ fails, distinct => by
    obtain ⟨item, mem, inside⟩ := fails.closes known (List.forall_mem_cons.mp distinct).2
    exact ⟨item, List.mem_cons_of_mem _ mem, inside⟩

theorem FailsMembers.closes (known : defs.Distinct) {path : List String} {members : Members} :
    FailsMembers defs (.cyclic pointer chain) path members →
      (∀ entry ∈ members, entry.2.DistinctKeys) → ∃ entry ∈ members, Closes defs path entry.2 chain
  | .head fails, distinct =>
    ⟨_, List.mem_cons_self, fails.closes known (distinct _ List.mem_cons_self)⟩
  | .tail _ fails, distinct => by
    obtain ⟨entry, mem, inside⟩ := fails.closes known (List.forall_mem_cons.mp distinct).2
    exact ⟨entry, List.mem_cons_of_mem _ mem, inside⟩

end

/-! ### Chains of documents -/

/-- A chain of definitions, each of which refers to the next one, whose last one comes before. -/
structure IsCycle (defs : Definitions) (chain : List String) : Prop where
  known : ∀ name ∈ chain, ∃ target, Assoc.get? defs name = some target
  linked : chain.IsChain (Refers defs)
  closed : ∃ passed last, chain = passed ++ [last] ∧ last ∈ passed

/-- No definition leads back to itself. -/
def Acyclic (defs : Definitions) : Prop := ∀ name, ¬ Relation.TransGen (Refers defs) name name

/-- An entry of `definitions` is hidden: `$defs` has one of the same name, which wins. -/
def IsHidden (document : Json) (name : String) (entry : Json) : Prop :=
  Assoc.get? (sectionOf document "definitions") name = some entry ∧
    name ∈ Assoc.keys (sectionOf document "$defs")

/-- The first link of a chain is that of a hidden entry, and the definition of the entry's name does
not have it. -/
def StartsHidden (document : Json) (chain : List String) : Prop :=
  ∃ name next rest entry, chain = name :: next :: rest ∧ IsHidden document name entry ∧
    Mentions entry next ∧ ¬ Refers (definitionsOf document) name next

/-- An entry of a section is the definition of its name, or it is hidden. -/
theorem get?_definitionsOf_or_isHidden (distinct : document.DistinctKeys)
    (inSections : key ∈ sectionKeys)
    (found : Assoc.get? (sectionOf document key) name = some value) :
    Assoc.get? (definitionsOf document) name = some value ∨ IsHidden document name value := by
  rw [get?_definitionsOf distinct]
  rcases List.mem_pair.mp inSections with rfl | rfl
  · cases hides : Assoc.get? (sectionOf document "$defs") name with
    | none => exact .inl found
    | some other =>
      refine .inr ⟨found, ?_⟩
      rw [Assoc.mem_keys_iff, hides]
      rfl
  · rw [found]
    exact .inl rfl

theorem IsHidden.known {entry : Json} (distinct : document.DistinctKeys)
    (hidden : IsHidden document name entry) :
    ∃ target, Assoc.get? (definitionsOf document) name = some target :=
  exists_definition_of_mem_sectionOf distinct (by decide) hidden.2

/-- A chain that closes with nothing open is a cycle. -/
theorem Closes.isCycle (closes : Closes defs [] value chain) : IsCycle defs chain := by
  obtain ⟨next, rest, rfl, _, linked, known, closed⟩ := closes.exists_links
  exact ⟨known, linked, closed⟩

/-- The chain that a cyclic error names has names of definitions only, comes back to one of them and
follows references, but for its first link where that is one of a hidden entry. -/
theorem chain_of_cyclic (distinct : document.DistinctKeys)
    (failed : resolve document = .error (.cyclic pointer chain)) :
    (∀ name ∈ chain, ∃ target, Assoc.get? (definitionsOf document) name = some target) ∧
      (∃ passed last, chain = passed ++ [last] ∧ last ∈ passed) ∧
      (chain.IsChain (Refers (definitionsOf document)) ∨
        ∃ name next rest entry, chain = name :: next :: rest ∧ IsHidden document name entry ∧
          Mentions entry next ∧ (next :: rest).IsChain (Refers (definitionsOf document))) := by
  have known := distinct_definitionsOf distinct
  cases document with
  | object members =>
    cases documentFails_of_resolveWith known distinct failed with
    | root fails =>
      have cycle := (fails.closes known distinct).isCycle
      exact ⟨cycle.known, cycle.closed, .inl cycle.linked⟩
    | member mem fails =>
      have cycle := (fails.closes known ((Json.distinctKeys_object.mp distinct).2 _ mem)).isCycle
      exact ⟨cycle.known, cycle.closed, .inl cycle.linked⟩
    | @entry key name entries value inSections hasSection mem fails =>
      have entriesKeys := (Json.distinctKeys_object.mp distinct).2 _ hasSection
      have valueKeys := (Json.distinctKeys_object.mp entriesKeys).2 _ mem
      obtain ⟨next, rest, rfl, mentions, linked, laterKnown, closed⟩ :=
        (fails.closes known valueKeys).exists_links
      have found : Assoc.get? (sectionOf (.object members) key) name = some value := by
        rw [sectionOf_eq_of_mem distinct hasSection]
        exact child?_of_mem entriesKeys mem
      rcases get?_definitionsOf_or_isHidden distinct inSections found with merged | hidden
      · refine ⟨List.forall_mem_cons.mpr ⟨⟨value, merged⟩, laterKnown⟩, closed, .inl ?_⟩
        exact List.isChain_cons_cons.mpr ⟨⟨value, merged, mentions⟩, linked⟩
      · refine ⟨List.forall_mem_cons.mpr ⟨hidden.known distinct, laterKnown⟩, closed, .inr ?_⟩
        exact ⟨name, next, rest, value, rfl, hidden, mentions, linked⟩
  | _ => cases failed

/-- Links that come back to their start make a cycle. -/
theorem transGen_of_isChain {passed : List String} {last : String}
    (linked : (passed ++ [last]).IsChain (Refers defs)) (again : last ∈ passed) :
    Relation.TransGen (Refers defs) last last := by
  obtain ⟨before, between, rfl⟩ := List.append_of_mem again
  rw [List.append_assoc, List.cons_append] at linked
  have back := linked.right_of_append.imp fun _ _ ↦ Relation.TransGen.single
  exact back.rel_cons (List.mem_append_right between List.mem_cons_self)

theorem IsCycle.not_acyclic (cycle : IsCycle defs chain) : ¬ Acyclic defs := by
  obtain ⟨passed, last, rfl, again⟩ := cycle.closed
  intro acyclic
  exact acyclic last (transGen_of_isChain cycle.linked again)

theorem isCycle_iff_not_startsHidden (distinct : document.DistinctKeys)
    (failed : resolve document = .error (.cyclic pointer chain)) :
    IsCycle (definitionsOf document) chain ↔ ¬ StartsHidden document chain := by
  obtain ⟨known, closed, links⟩ := chain_of_cyclic distinct failed
  constructor
  · rintro cycle ⟨name, next, rest, entry, rfl, _, _, missing⟩
    exact missing (List.isChain_cons_cons.mp cycle.linked).1
  · intro notHidden
    refine ⟨known, ?_, closed⟩
    rcases links with linked | ⟨name, next, rest, entry, rfl, hidden, mentions, linked⟩
    · exact linked
    · refine List.isChain_cons_cons.mpr ⟨?_, linked⟩
      by_contra missing
      exact notHidden ⟨name, next, rest, entry, rfl, hidden, mentions, missing⟩

/-- Sections that share no name hide no entry. -/
theorem DisjointSections.not_startsHidden (disjoint : DisjointSections document) :
    ¬ StartsHidden document chain := by
  rintro ⟨name, next, rest, entry, _, ⟨found, hides⟩, _⟩
  have isEntry : name ∈ Assoc.keys (sectionOf document "definitions") := by
    rw [Assoc.mem_keys_iff, found]
    rfl
  exact absurd (disjoint _ (by decide) _ (by decide) name isEntry hides) (by decide)

/-- Where the definitions have no cycle, the name that closes the chain can only be the first one. -/
theorem exists_round_of_acyclic (distinct : document.DistinctKeys)
    (failed : resolve document = .error (.cyclic pointer chain))
    (acyclic : Acyclic (definitionsOf document)) :
    ∃ name between, chain = name :: between ++ [name] := by
  obtain ⟨known, ⟨passed, last, same, again⟩, links⟩ := chain_of_cyclic distinct failed
  have notLinked : ¬ chain.IsChain (Refers (definitionsOf document)) := by
    intro linked
    exact IsCycle.not_acyclic ⟨known, linked, passed, last, same, again⟩ acyclic
  obtain ⟨name, next, rest, entry, rfl, _, _, linked⟩ := links.resolve_left notLinked
  cases passed with
  | nil => cases again
  | cons first passed =>
    obtain ⟨rfl, later⟩ := List.cons.inj same
    rcases List.mem_cons.mp again with rfl | again
    · exact ⟨last, passed, congrArg (List.cons last) later⟩
    · -- The last name comes twice behind the first one, where all links are in the definitions.
      rw [later] at linked
      exact absurd (transGen_of_isChain linked again) (acyclic last)

/-- **A reported cycle is a cycle, unless it starts in a hidden entry.** The chain that a cyclic error
names has names of definitions only and comes back to one of them. It is a cycle of references between
the definitions of the document exactly if its first link is not one that a hidden entry has and the
definition of the same name has not. So it is one in every document whose sections share no name, and
a document whose definitions have no cycle is refused only where a hidden entry leads back to its own
name. -/
theorem reported_chain_is_cycle_iff (distinct : document.DistinctKeys)
    (failed : resolve document = .error (.cyclic pointer chain)) :
    (∀ name ∈ chain, ∃ target, Assoc.get? (definitionsOf document) name = some target) ∧
    (∃ passed last, chain = passed ++ [last] ∧ last ∈ passed) ∧
    (IsCycle (definitionsOf document) chain ↔ ¬ StartsHidden document chain) ∧
    (DisjointSections document → IsCycle (definitionsOf document) chain) ∧
    (Acyclic (definitionsOf document) →
      StartsHidden document chain ∧ ∃ name between, chain = name :: between ++ [name]) := by
  obtain ⟨known, closed, _⟩ := chain_of_cyclic distinct failed
  have cycleIff := isCycle_iff_not_startsHidden distinct failed
  refine ⟨known, closed, cycleIff, fun disjoint ↦ cycleIff.mpr disjoint.not_startsHidden, ?_⟩
  intro acyclic
  refine ⟨?_, exists_round_of_acyclic distinct failed acyclic⟩
  by_contra notHidden
  exact (cycleIff.mpr notHidden).not_acyclic acyclic

/-! ### A hidden entry and a cycle -/

/-- A document whose `definitions` has an entry that points at the definition of the same name in
`$defs`. -/
def hiddenEntry : Json :=
  .object
    [("definitions", .object
        [("node", .object [("next", .object [("$ref", .text "#/$defs/node")])])]),
      ("$defs", .object [("node", .object [("type", .text "object")])])]

theorem resolve_hiddenEntry :
    resolve hiddenEntry = .error (.cyclic "#/$defs/node" ["node", "node"]) := by
  have named : definitionName "#/$defs/node" = .ok "node" := by decide
  have refused : referent (definitionsOf hiddenEntry) ["node"] "#/$defs/node" =
      .error (.cyclic "#/$defs/node" ["node", "node"]) :=
    referent_of_open named rfl List.mem_cons_self
  exact resolveWith_eq_error_of_entry rfl (by decide) (.object rfl (.head (.reference rfl refused)))

/-- Definitions without references have no cycle. -/
theorem acyclic_of_referenceFree
    (free : ∀ name target, Assoc.get? defs name = some target → ReferenceFree target) :
    Acyclic defs := by
  intro name back
  obtain ⟨next, ⟨target, known, mentions⟩, _⟩ := Relation.TransGen.head'_iff.mp back
  exact (free name target known).not_mentions mentions

/-- The definitions of the document have no cycle, yet one is reported. -/
theorem exists_chain_without_cycle :
    resolve hiddenEntry = .error (.cyclic "#/$defs/node" ["node", "node"]) ∧
      Acyclic (definitionsOf hiddenEntry) ∧
      ¬ IsCycle (definitionsOf hiddenEntry) ["node", "node"] := by
  have merged : definitionsOf hiddenEntry = [("node", .object [("type", .text "object")])] := rfl
  have acyclic : Acyclic (definitionsOf hiddenEntry) := by
    apply acyclic_of_referenceFree
    intro name target known
    rw [merged] at known
    obtain ⟨rfl, rfl⟩ := Prod.mk.inj (List.mem_singleton.mp (Assoc.mem_of_get?_eq_some known))
    exact referenceFree_single rfl (referenceFree_text _)
  exact ⟨resolve_hiddenEntry, acyclic, fun cycle ↦ cycle.not_acyclic acyclic⟩

/-- A document with two definitions, one of which holds a reference to the other one, an alias of
the first. -/
def mutualReferences : Json :=
  .object
    [("$defs", .object
        [("whole", .object [("part", .object [("$ref", .text "#/$defs/part")])]),
          ("part", .object [("$ref", .text "#/definitions/whole")])])]

theorem resolve_mutualReferences : resolve mutualReferences =
    .error (.cyclic "#/definitions/whole" ["whole", "part", "whole"]) := by
  have part : definitionName "#/$defs/part" = .ok "part" := by decide
  have whole : definitionName "#/definitions/whole" = .ok "whole" := by decide
  have ahead : aliasType (definitionsOf mutualReferences) (["whole"] ++ ["part"])
      (.object [("$ref", .text "#/definitions/whole")]) =
        .error (.cyclic "#/definitions/whole" ["whole", "part", "whole"]) :=
    aliasType_of_passed rfl rfl whole rfl List.mem_cons_self
  have refused : referent (definitionsOf mutualReferences) ["whole"] "#/$defs/part" =
      .error (.cyclic "#/definitions/whole" ["whole", "part", "whole"]) :=
    referent_of_aliasType_error part rfl (by decide) ahead
  exact resolveWith_eq_error_of_entry rfl (by decide) (.object rfl (.head (.reference rfl refused)))

/-- The chain goes through the alias that the look-ahead follows. -/
theorem mutualReferences_reported :
    IsCycle (definitionsOf mutualReferences) ["whole", "part", "whole"] := by
  have distinct : mutualReferences.DistinctKeys := by
    simp [mutualReferences, Json.DistinctKeys, Json.DistinctKeysMembers, Assoc.keys]
  have disjoint : DisjointSections mutualReferences := by decide
  exact (reported_chain_is_cycle_iff distinct resolve_mutualReferences).2.2.2.1 disjoint

end VerbForms.Schema
