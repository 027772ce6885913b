import VerbForms.Proofs.Schema.Fails
import VerbForms.Proofs.Schema.Idempotence

/-!
# The opened root

A root that is a reference is opened before the members of the document are expanded. What is opened
holds members of the document as they were and others that are free of references
(`mem_or_referenceFree_of_openRoot`), so only the former can fail afterwards
(`DocumentFails`, `documentFails_of_resolveWith`).
-/

namespace VerbForms.Schema

variable {defs : Definitions} {members opened entries outs : Members} {value out : Json}
variable {key name pointer : String} {target : Json} {e : SchemaError}

/-! ### Opening -/

private theorem openRoot_of_reference (reference : pointer? members = some pointer) :
    openRoot defs members = referent defs [] pointer >>= fun
      | .inlined name target => do
        let replacement ← expand defs [name] target
        return Assoc.putAll (sectionsIn members) (replacement.members?.getD [])
      | .dropped => expandMembers defs [] (siblings members) := by
  unfold openRoot
  split
  · next plain =>
    rw [plain] at reference
    cases reference
  · next found =>
    obtain rfl := Option.some.inj (reference.symm.trans found)
    rfl

/-- A root that is a reference opens only if it is decided what becomes of it. -/
theorem exists_referent_of_openRoot (reference : pointer? members = some pointer)
    (run : openRoot defs members = .ok opened) :
    ∃ becomes, referent defs [] pointer = .ok becomes := by
  rw [openRoot_of_reference reference] at run
  obtain ⟨becomes, decided, _⟩ := bind_eq_ok.mp run
  exact ⟨becomes, decided⟩

/-- A root that is replaced is opened to the sections with the expanded definition written into
them. -/
theorem openRoot_inlined_iff (reference : pointer? members = some pointer)
    (replaced : referent defs [] pointer = .ok (.inlined name target)) :
    openRoot defs members = .ok opened ↔
      ∃ outs, Expands defs [name] target (.object outs) ∧
        Assoc.putAll (sectionsIn members) outs = opened := by
  obtain ⟨targetMembers, rfl⟩ := exists_object_of_inlined replaced
  rw [openRoot_of_reference reference, replaced, bind_eq_ok]
  simp only [Except.ok.injEq, exists_eq_left', bind_eq_ok, pure_eq_ok, expand_eq_ok_iff]
  constructor
  · rintro ⟨out, expands, rfl⟩
    obtain ⟨outs, rfl⟩ := expands.exists_object
    exact ⟨outs, expands, rfl⟩
  · rintro ⟨outs, expands, rfl⟩
    exact ⟨.object outs, expands, rfl⟩

/-- A root that is dropped is opened to its other members, each expanded as a whole. -/
theorem openRoot_dropped_iff (reference : pointer? members = some pointer)
    (scalar : referent defs [] pointer = .ok .dropped) :
    openRoot defs members = .ok opened ↔ ExpandsMembers defs [] (siblings members) opened := by
  rw [openRoot_of_reference reference, scalar, bind_eq_ok]
  simp only [Except.ok.injEq, exists_eq_left', expandMembers_eq_ok_iff]

/-- A root fails to open where it would fail as any other value. -/
theorem fails_of_openRoot (failed : openRoot defs members = .error e) :
    Fails defs e [] (.object members) := by
  cases reference : pointer? members with
  | none =>
    rw [openRoot_of_plain reference] at failed
    cases failed
  | some pointer =>
    rw [openRoot_of_reference reference] at failed
    rcases bind_eq_error.mp failed with undecided | ⟨becomes, decided, failed⟩
    · exact .reference reference undecided
    · cases becomes with
      | inlined name target =>
        rcases bind_eq_error.mp failed with inside | ⟨_, _, done⟩
        · exact .inlined reference decided (expand_eq_error_iff.mp inside)
        · cases done
      | dropped => exact .dropped reference decided (expandMembers_eq_error_iff.mp failed)

/-- A root that opens would expand as any other value. -/
theorem exists_expands_of_openRoot (reference : pointer? members = some pointer)
    (run : openRoot defs members = .ok opened) :
    ∃ out, Expands defs [] (.object members) out := by
  obtain ⟨becomes, decided⟩ := exists_referent_of_openRoot reference run
  cases becomes with
  | inlined name target =>
    obtain ⟨outs, expands, _⟩ := (openRoot_inlined_iff reference decided).mp run
    exact ⟨.object outs, .inlined reference decided expands⟩
  | dropped =>
    exact ⟨.object opened, .dropped reference decided ((openRoot_dropped_iff reference decided).mp run)⟩

/-- Of the members of a document its sections are kept beside a replaced root. -/
theorem get?_sectionsIn (members : Members) (key : String) :
    Assoc.get? (sectionsIn members) key =
      if key ∈ sectionKeys then Assoc.get? members key else none := by
  rw [sectionsIn]
  induction sectionKeys with
  | nil => rfl
  | cons first rest ih =>
    rw [List.filterMap_cons]
    by_cases same : first = key
    · subst same
      cases found : Assoc.get? members first with
      | none => simp [ih, found]
      | some value => simp [Assoc.get?]
    · have other : ¬ key = first := fun eq ↦ same eq.symm
      cases Assoc.get? members first with
      | none => simp [ih, other]
      | some value => simp [Assoc.get?, ih, same, other]

/-- What is opened of a dropped root is free of references. -/
theorem referenceFree_of_dropped (known : defs.Distinct)
    (distinct : (Json.object members).DistinctKeys) (reference : pointer? members = some pointer)
    (scalar : referent defs [] pointer = .ok .dropped) (run : openRoot defs members = .ok opened)
    {entry : String × Json} (mem : entry ∈ opened) : ReferenceFree entry.2 := by
  have expands := (openRoot_dropped_iff reference scalar).mp run
  have left := Json.distinctKeys_object.mp (distinct.erase referenceKey)
  have openedKeys := (openRoot_plain known distinct run).2
  exact expands.referenceFree known left.2 entry.1 entry.2 (child?_of_mem openedKeys mem)

/-- A member of an opened root was a member of the document or is free of references. -/
theorem mem_or_referenceFree_of_openRoot (known : defs.Distinct)
    (distinct : (Json.object members).DistinctKeys) (run : openRoot defs members = .ok opened)
    {entry : String × Json} (mem : entry ∈ opened) :
    entry ∈ members ∨ ReferenceFree entry.2 := by
  cases reference : pointer? members with
  | none =>
    rw [openRoot_of_plain reference] at run
    obtain rfl := Except.ok.inj run
    exact .inl mem
  | some pointer =>
    obtain ⟨becomes, decided⟩ := exists_referent_of_openRoot reference run
    cases becomes with
    | inlined name target =>
      obtain ⟨outs, expands, rfl⟩ := (openRoot_inlined_iff reference decided).mp run
      have targetKeys := known _ _ (referent_inlined decided).1
      rcases Assoc.mem_putAll mem with old | new
      · exact .inl (mem_of_mem_sectionsIn old)
      · exact .inr ((expands.referenceFree known targetKeys).member
          (expands.distinctKeys known targetKeys) new)
    | dropped =>
      exact .inr (referenceFree_of_dropped known distinct reference decided run mem)

/-! ### Failing documents -/

/-- A document stops on an error: at a root that is a reference, in an entry of a section, or in
another member. -/
inductive DocumentFails (defs : Definitions) (e : SchemaError) (members : Members) : Prop where
  | root (fails : Fails defs e [] (.object members))
  | entry {key name : String} {entries : Members} {value : Json} (inSections : key ∈ sectionKeys)
      (hasSection : (key, Json.object entries) ∈ members) (mem : (name, value) ∈ entries)
      (fails : Fails defs e [name] value)
  | member {key : String} {value : Json} (mem : (key, value) ∈ members)
      (fails : Fails defs e [] value)

theorem exists_fails_of_expandEntries (failed : expandEntries defs entries = .error e) :
    ∃ entry ∈ entries, Fails defs e [entry.1] entry.2 := by
  induction entries with
  | nil => cases failed
  | cons head rest ih =>
    rw [expandEntries] at failed
    rcases bind_eq_error.mp failed with first | ⟨_, _, failed⟩
    · exact ⟨head, List.mem_cons_self, expand_eq_error_iff.mp first⟩
    · rcases bind_eq_error.mp failed with later | ⟨_, _, done⟩
      · obtain ⟨entry, mem, fails⟩ := ih later
        exact ⟨entry, List.mem_cons_of_mem head mem, fails⟩
      · cases done

theorem exists_error_of_expandDocument (failed : expandDocument defs members = .error e) :
    ∃ entry ∈ members, expandTop defs entry.1 entry.2 = .error e := by
  induction members with
  | nil => cases failed
  | cons head rest ih =>
    rw [expandDocument] at failed
    rcases bind_eq_error.mp failed with first | ⟨_, _, failed⟩
    · exact ⟨head, List.mem_cons_self, first⟩
    · rcases bind_eq_error.mp failed with later | ⟨_, _, done⟩
      · obtain ⟨entry, mem, fails⟩ := ih later
        exact ⟨entry, List.mem_cons_of_mem head mem, fails⟩
      · cases done

private theorem documentFails_of_expandTop (mem : (key, value) ∈ members)
    (failed : expandTop defs key value = .error e) : DocumentFails defs e members := by
  rcases exists_section_or_isPlain key value with ⟨inSections, entries, rfl⟩ | plain
  · rw [expandTop, if_pos inSections, map_eq_error] at failed
    obtain ⟨entry, isEntry, fails⟩ := exists_fails_of_expandEntries failed
    exact .entry inSections mem isEntry fails
  · rw [expandTop_of_plain plain, expand_eq_error_iff] at failed
    exact .member mem failed

/-- A document that does not resolve stops on the error at a value of its own: what an opened root
brings with it is free of references. -/
theorem documentFails_of_resolveWith (known : defs.Distinct)
    (distinct : (Json.object members).DistinctKeys)
    (failed : resolveWith defs (.object members) = .error e) : DocumentFails defs e members := by
  rw [resolveWith] at failed
  rcases bind_eq_error.mp failed with atRoot | ⟨opened, runRoot, failed⟩
  · exact .root (fails_of_openRoot atRoot)
  · rcases bind_eq_error.mp failed with inside | ⟨_, _, done⟩
    · obtain ⟨entry, mem, failed⟩ := exists_error_of_expandDocument inside
      rcases mem_or_referenceFree_of_openRoot known distinct runRoot mem with old | free
      · exact documentFails_of_expandTop old failed
      · have openedKeys := (openRoot_plain known distinct runRoot).2
        have entryKeys := (Json.distinctKeys_object.mp openedKeys).2 entry mem
        rw [free.expandTop entryKeys entry.1] at failed
        cases failed
    · cases done

/-- A document stops on the error of the first entry of the section that it starts with. -/
theorem resolveWith_eq_error_of_entry {rest : Members}
    (plain : pointer? ((key, .object ((name, value) :: entries)) :: rest) = none)
    (inSections : key ∈ sectionKeys) (fails : Fails defs e [name] value) :
    resolveWith defs (.object ((key, .object ((name, value) :: entries)) :: rest)) = .error e := by
  have first : expandTop defs key (.object ((name, value) :: entries)) = .error e := by
    rw [expandTop, if_pos inSections, map_eq_error, expandEntries]
    exact bind_eq_error.mpr (.inl (expand_eq_error_iff.mpr fails))
  rw [resolveWith, openRoot_of_plain plain]
  refine bind_eq_error.mpr (.inr ⟨_, rfl, bind_eq_error.mpr (.inl ?_)⟩)
  rw [expandDocument]
  exact bind_eq_error.mpr (.inl first)

end VerbForms.Schema
