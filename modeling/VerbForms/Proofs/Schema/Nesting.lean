import VerbForms.Proofs.Schema.Calls
import VerbForms.Proofs.Schema.OpenedRoot

/-!
# Bounded nesting

The expansions of a document begin at a root that is a reference, at the entries of the sections, each
with its own name open, and at the other members; from there on every one is a call
(`Begins`, `Passes`). A document resolves exactly where all of them do, and an error is the error of
one of them. Behind the name of an entry the open names are those of known definitions, none of them
twice, so that no more substitutions are nested than there are definitions (`nesting_is_bounded`). An
entry's own name is open whether it is a definition or not.
-/

namespace VerbForms.Schema

variable {defs : Definitions} {members opened entries : Members} {result : Json}
variable {name : String} {moment start : Moment} {e : SchemaError}

/-- Where the expansions of a document begin. -/
inductive Begins (defs : Definitions) (members : Members) : Moment → Prop where
  | root {pointer : String} (reference : pointer? members = some pointer) :
      Begins defs members ⟨[], .object members⟩
  | entry {opened entries : Members} {key name : String} {value : Json}
      (run : openRoot defs members = .ok opened) (inSections : key ∈ sectionKeys)
      (hasSection : (key, Json.object entries) ∈ opened) (mem : (name, value) ∈ entries) :
      Begins defs members ⟨[name], value⟩
  | member {opened : Members} {key : String} {value : Json}
      (run : openRoot defs members = .ok opened) (mem : (key, value) ∈ opened)
      (plain : IsPlain key value) : Begins defs members ⟨[], value⟩

/-- The expansions of a document: where they begin, and what is called for from there on. -/
def Passes (defs : Definitions) (members : Members) (moment : Moment) : Prop :=
  ∃ start, Begins defs members start ∧ Relation.ReflTransGen (Calls defs) start moment

/-! ### Results and errors -/

theorem Begins.exists_expands (begins : Begins defs members start)
    (run : resolveWith defs (.object members) = .ok result) :
    ∃ out, Expands defs start.opened start.value out := by
  obtain ⟨opened, runRoot, run⟩ := bind_eq_ok.mp run
  obtain ⟨outs, runDocument, _⟩ := bind_eq_ok.mp run
  have aligned := aligned_expandDocument runDocument
  cases begins with
  | root reference => exact exists_expands_of_openRoot reference runRoot
  | entry runRoot' inSections hasSection mem =>
    obtain rfl := Except.ok.inj (runRoot.symm.trans runRoot')
    obtain ⟨_, runSection⟩ := aligned.exists_of_mem hasSection
    obtain ⟨_, runEntries, _⟩ := (expandTop_section inSections).mp runSection
    exact (aligned_expandEntries runEntries).exists_of_mem mem
  | member runRoot' mem plain =>
    obtain rfl := Except.ok.inj (runRoot.symm.trans runRoot')
    obtain ⟨out, runMember⟩ := aligned.exists_of_mem mem
    exact ⟨out, (expandTop_plain plain).mp runMember⟩

/-- In a document that resolves all expansions succeed. -/
theorem Passes.exists_expands (passes : Passes defs members moment)
    (run : resolveWith defs (.object members) = .ok result) :
    ∃ out, Expands defs moment.opened moment.value out := by
  obtain ⟨start, begins, steps⟩ := passes
  induction steps with
  | refl => exact begins.exists_expands run
  | tail _ calls ih =>
    obtain ⟨_, expands⟩ := ih
    exact calls.exists_expands expands

/-- A document that does not resolve has an expansion that fails. -/
theorem exists_begins_of_error (failed : resolveWith defs (.object members) = .error e) :
    ∃ start, Begins defs members start ∧ Fails defs e start.opened start.value := by
  rcases bind_eq_error.mp failed with atRoot | ⟨opened, runRoot, failed⟩
  · cases reference : pointer? members with
    | none =>
      rw [openRoot_of_plain reference] at atRoot
      cases atRoot
    | some pointer => exact ⟨_, .root reference, fails_of_openRoot atRoot⟩
  · rcases bind_eq_error.mp failed with inside | ⟨_, _, done⟩
    · obtain ⟨⟨key, value⟩, mem, failed⟩ := exists_error_of_expandDocument inside
      rcases exists_section_or_isPlain key value with ⟨inSections, entries, rfl⟩ | plain
      · rw [expandTop, if_pos inSections, map_eq_error] at failed
        obtain ⟨entry, isEntry, fails⟩ := exists_fails_of_expandEntries failed
        exact ⟨_, .entry runRoot inSections mem isEntry, fails⟩
      · rw [expandTop_of_plain plain, expand_eq_error_iff] at failed
        exact ⟨_, .member runRoot mem plain, failed⟩
    · cases done

/-- A document resolves and all of its expansions succeed, or it stops on the error of a reference
that one of them comes to. -/
theorem resolveWith_ends (defs : Definitions) (members : Members) :
    (∃ result, resolveWith defs (.object members) = .ok result ∧
      ∀ moment, Passes defs members moment →
        ∃ out, Expands defs moment.opened moment.value out) ∨
    ∃ e, resolveWith defs (.object members) = .error e ∧
      ∃ moment pointer, Passes defs members moment ∧ reference? moment.value = some pointer ∧
        referent defs moment.opened pointer = .error e := by
  cases run : resolveWith defs (.object members) with
  | ok result => exact .inl ⟨result, rfl, fun moment passes ↦ passes.exists_expands run⟩
  | error e =>
    obtain ⟨start, begins, fails⟩ := exists_begins_of_error run
    obtain ⟨moment, pointer, steps, reference, stopped⟩ := fails.stops
    exact .inr ⟨e, rfl, moment, pointer, ⟨start, begins, steps⟩, reference, stopped⟩

/-! ### Open names -/

/-- A name of an entry in a section of the document, once its root is opened. -/
def IsEntryName (defs : Definitions) (members : Members) (name : String) : Prop :=
  ∃ opened key entries, openRoot defs members = .ok opened ∧ key ∈ sectionKeys ∧
    (key, Json.object entries) ∈ opened ∧ name ∈ Assoc.keys entries

/-- What is open where an expansion begins: nothing, or the name of an entry. -/
def IsStart (defs : Definitions) (members : Members) (path : List String) : Prop :=
  path = [] ∨ ∃ name, path = [name] ∧ IsEntryName defs members name

theorem Begins.isStart (begins : Begins defs members start) :
    IsStart defs members start.opened := by
  cases begins with
  | root _ => exact .inl rfl
  | @entry opened entries key name value run inSections hasSection mem =>
    exact .inr ⟨name, rfl, opened, key, entries, run, inSections, hasSection,
      List.mem_map_of_mem mem⟩
  | member _ _ _ => exact .inl rfl

theorem IsStart.nodup {path : List String} (isStart : IsStart defs members path) : path.Nodup := by
  rcases isStart with rfl | ⟨name, rfl, _⟩
  · exact List.nodup_nil
  · exact List.nodup_singleton name

/-- Where the definitions are those of the document and its root is no reference, the names of the
entries are defined. -/
theorem IsEntryName.known (distinct : (Json.object members).DistinctKeys)
    (plain : pointer? members = none)
    (isEntry : IsEntryName (definitionsOf (.object members)) members name) :
    ∃ target, Assoc.get? (definitionsOf (.object members)) name = some target := by
  obtain ⟨opened, key, entries, run, inSections, hasSection, mem⟩ := isEntry
  rw [openRoot_of_plain plain] at run
  obtain rfl := Except.ok.inj run
  rw [← sectionOf_eq_of_mem distinct hasSection] at mem
  exact exists_definition_of_mem_sectionOf distinct inSections mem

/-- The names that are open in an expansion: at first what was open where it began, then known
definitions. -/
theorem Passes.exists_opens (passes : Passes defs members moment) :
    ∃ path added, moment.opened = path ++ added ∧ IsStart defs members path ∧
      Opens defs path added := by
  obtain ⟨start, begins, steps⟩ := passes
  obtain ⟨added, before, opens⟩ := exists_opens_of_calls steps
  exact ⟨start.opened, added, before, begins.isStart, opens⟩

/-- Where the definitions are those of the document and its root is no reference, all open names are
defined. -/
theorem Passes.known (distinct : (Json.object members).DistinctKeys)
    (plain : pointer? members = none)
    (passes : Passes (definitionsOf (.object members)) members moment) :
    ∀ name ∈ moment.opened,
      ∃ target, Assoc.get? (definitionsOf (.object members)) name = some target := by
  obtain ⟨path, added, before, isStart, opens⟩ := passes.exists_opens
  intro name mem
  rw [before] at mem
  rcases List.mem_append.mp mem with first | later
  · rcases isStart with rfl | ⟨entry, rfl, isEntry⟩
    · cases first
    · obtain rfl := List.mem_singleton.mp first
      exact isEntry.known distinct plain
  · exact opens.known name later

/-- What bounds an expansion. The open names are distinct: behind the name of the entry that it began
at they are those of known definitions, one for each nested substitution. The look-ahead from a
reference passes known definitions that are not open, each at most once, and comes to a last one. -/
structure IsBounded (defs : Definitions) (members : Members) (moment : Moment) : Prop where
  nodup : moment.opened.Nodup
  nested : ∃ path substituted, moment.opened = path ++ substituted ∧ IsStart defs members path ∧
    Opens defs path substituted ∧ substituted.length ≤ defs.length
  known : defs = definitionsOf (.object members) → pointer? members = none →
    ∀ name ∈ moment.opened, ∃ target, Assoc.get? defs name = some target
  ahead : ∀ pointer trail target, reference? moment.value = some pointer →
    LooksAhead defs moment.opened pointer trail target →
      (∃ passed, trail = moment.opened ++ passed ∧ Opens defs moment.opened passed ∧
        passed.length ≤ unopened defs moment.opened) ∧
      ∃ lastTrail last, LooksAhead defs moment.opened pointer lastTrail last ∧
        IsLast defs lastTrail last ∧ aliasType defs trail target = aliasType defs lastTrail last

theorem Passes.isBounded (distinct : (Json.object members).DistinctKeys)
    (passes : Passes defs members moment) : IsBounded defs members moment := by
  obtain ⟨path, substituted, before, isStart, opens⟩ := passes.exists_opens
  constructor
  · rw [before]
    exact opens.nodup_append isStart.nodup
  · have few := Nat.le_trans opens.length_le List.countP_le_length
    exact ⟨path, substituted, before, isStart, opens, few⟩
  · rintro rfl plain
    exact passes.known distinct plain
  · intro pointer trail target _ ahead
    obtain ⟨passed, rfl, opensPassed⟩ := ahead.exists_opens
    exact ⟨⟨passed, rfl, opensPassed, opensPassed.length_le⟩, ahead.exists_last⟩

/-- **Expansions nest boundedly.** Whatever the definitions, no chain of nested expansions goes on for
ever, so every expansion ends with a result or on an error, and a document resolves, with all of its
expansions, or stops on the error of a reference that one of them comes to. In every expansion no more
substitutions are nested than there are definitions; the open names are distinct, and all but that of
the entry at which it began are known. -/
theorem nesting_is_bounded (distinct : (Json.object members).DistinctKeys) (defs : Definitions) :
    WellFounded (fun next moment ↦ Calls defs moment next) ∧
    (∀ moment, Ends defs moment) ∧
    ((∃ result, resolveWith defs (.object members) = .ok result ∧
        ∀ moment, Passes defs members moment →
          ∃ out, Expands defs moment.opened moment.value out) ∨
      ∃ e, resolveWith defs (.object members) = .error e ∧
        ∃ moment pointer, Passes defs members moment ∧ reference? moment.value = some pointer ∧
          referent defs moment.opened pointer = .error e) ∧
    ∀ moment, Passes defs members moment → IsBounded defs members moment :=
  ⟨wellFounded_calls defs, ends defs, resolveWith_ends defs members,
    fun _ passes ↦ passes.isBounded distinct⟩

/-! ### An entry that is no definition -/

/-- A reference to the node. -/
def toNode : Json := .object [("$ref", .text "#/$defs/node")]

/-- What the page and the node hold. -/
def page : Json := .object [("first", toNode)]

def node : Json := .object [("type", .text "object"), ("next", toNode)]

/-- A document with an entry for a page, which is none of the definitions it is resolved by. -/
def pageEntry : Members := [("$defs", .object [("page", page)])]

def nodeOnly : Definitions := [("node", node)]

private theorem referent_node {path : List String} (fresh : "node" ∉ path) :
    referent nodeOnly path "#/$defs/node" = .ok (.inlined "node" node) :=
  referent_eq_inlined_iff.mpr ⟨by decide, rfl, fresh, aliasType_of_declaredType rfl _⟩

theorem begins_page : Begins nodeOnly pageEntry ⟨["page"], page⟩ :=
  .entry (openRoot_of_plain rfl) (by decide) List.mem_cons_self List.mem_cons_self

/-- The name of the entry is open though it is no definition, and the chain of the error starts with
it. -/
theorem exists_unknown_open_name :
    (∃ moment, Passes nodeOnly pageEntry moment ∧ "page" ∈ moment.opened ∧
      Assoc.get? nodeOnly "page" = none) ∧
    resolveWith nodeOnly (.object pageEntry) =
      .error (.cyclic "#/$defs/node" ["page", "node", "node"]) := by
  have refused : referent nodeOnly ["page", "node"] "#/$defs/node" =
      .error (.cyclic "#/$defs/node" ["page", "node", "node"]) :=
    referent_of_open (by decide) rfl (by decide)
  have fails : Fails nodeOnly (.cyclic "#/$defs/node" ["page", "node", "node"]) ["page"] page :=
    .object rfl (.head (.inlined rfl (referent_node (by decide))
      (.object rfl (.tail (expands_text _ _) (.head (.reference rfl refused))))))
  exact ⟨⟨_, ⟨_, begins_page, .refl⟩, List.mem_cons_self, rfl⟩,
    resolveWith_eq_error_of_entry rfl (by decide) fails⟩

/-- The node is open behind the page, where the reference in it is refused. -/
theorem pageEntry_nests :
    Passes nodeOnly pageEntry ⟨["page", "node"], toNode⟩ ∧ ["page", "node"].Nodup ∧
      ∃ path substituted, ["page", "node"] = path ++ substituted ∧
        IsStart nodeOnly pageEntry path ∧ Opens nodeOnly path substituted ∧
        substituted.length ≤ 1 := by
  have distinct : (Json.object pageEntry).DistinctKeys := by
    simp [pageEntry, page, toNode, Json.DistinctKeys, Json.DistinctKeysMembers, Assoc.keys]
  have first : Calls nodeOnly ⟨["page"], page⟩ ⟨["page"], toNode⟩ :=
    .member rfl List.mem_cons_self
  have inside : Calls nodeOnly ⟨["page"], toNode⟩ ⟨["page"] ++ ["node"], node⟩ :=
    .definition rfl (referent_node (by decide))
  have next : Calls nodeOnly ⟨["page"] ++ ["node"], node⟩ ⟨["page"] ++ ["node"], toNode⟩ :=
    .member rfl (List.mem_cons_of_mem _ List.mem_cons_self)
  have passes : Passes nodeOnly pageEntry ⟨["page", "node"], toNode⟩ :=
    ⟨_, begins_page, .tail (.tail (.single first) inside) next⟩
  have bounded := (nesting_is_bounded distinct nodeOnly).2.2.2 _ passes
  exact ⟨passes, bounded.nodup, bounded.nested⟩

end VerbForms.Schema
