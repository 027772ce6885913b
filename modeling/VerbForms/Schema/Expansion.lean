import VerbForms.Schema.Node
import VerbForms.Schema.Pointer

/-!
# Expansion of references

A document is made self-contained: a reference to an object definition is replaced by the definition,
itself expanded, and any other reference loses its pointer and keeps its siblings. The path holds the
names of the definitions that are being expanded; a reference to one of them is a cycle. Since each
nested expansion opens a definition that was not open, the number of unopened definitions bounds the
nesting (`unopened_lt`).
-/

namespace VerbForms.Schema

/-- Number of definitions whose names are not on the path. -/
def unopened (defs : Definitions) (path : List String) : Nat := defs.countP fun entry => decide (entry.1 ∉ path)

theorem mem_of_get? {defs : Definitions} {name : String} {target : Json} (h : Assoc.get? defs name = some target) :
    (name, target) ∈ defs := by
  induction defs with
  | nil => simp at h
  | cons head rest ih =>
    obtain ⟨key, value⟩ := head
    by_cases hk : key = name
    · simp only [Assoc.get?, hk, if_true, Option.some.injEq] at h
      simp [hk, h]
    · simp only [Assoc.get?, hk, if_false] at h
      exact List.mem_cons_of_mem _ (ih h)

theorem unopened_append_le (defs : Definitions) (path : List String) (name : String) :
    unopened defs (path ++ [name]) ≤ unopened defs path := by
  refine List.countP_mono_left fun entry _ h => ?_
  simp only [decide_eq_true_eq, List.mem_append, not_or] at h ⊢
  exact h.1

/-- Opening a known definition that was not open leaves fewer unopened ones. -/
theorem unopened_lt {defs : Definitions} {path : List String} {name : String} {target : Json}
    (known : Assoc.get? defs name = some target) (fresh : name ∉ path) :
    unopened defs (path ++ [name]) < unopened defs path := by
  have mem := mem_of_get? known
  clear known
  induction defs with
  | nil => simp at mem
  | cons head rest ih =>
    have tail := unopened_append_le rest path name
    simp only [unopened, List.countP_cons] at tail ih ⊢
    rcases List.mem_cons.1 mem with rfl | mem
    · have before : decide ((name, target).1 ∉ path) = true := by simpa using fresh
      have after : decide ((name, target).1 ∉ path ++ [name]) = false := by simp
      rw [before, after]
      simp only [if_true, Bool.false_eq_true, if_false]
      omega
    · have := ih mem
      have headLe : (if decide (head.1 ∉ path ++ [name]) = true then 1 else 0)
          ≤ (if decide (head.1 ∉ path) = true then 1 else 0) := by
        by_cases hh : head.1 ∈ path <;> simp [hh]
        split <;> omega
      omega

/-- The declared type of a definition, or of the one it is an alias of. The trail ends with the name of
the definition in question. -/
def aliasType (defs : Definitions) (trail : List String) (target : Json) : Except SchemaError (Option String) :=
  match declaredType target with
  | some kind => .ok (some kind)
  | none =>
    match reference? target with
    | none => .ok none
    | some pointer =>
      match definitionName pointer with
      | .error e => .error e
      | .ok name =>
        match _known : Assoc.get? defs name with
        | none => .error (.unresolved pointer name)
        | some next =>
          if _fresh : name ∈ trail then .error (.cyclic pointer (trail ++ [name]))
          else aliasType defs (trail ++ [name]) next
termination_by unopened defs trail
decreasing_by exact unopened_lt _known _fresh

/-- The type in a definition that makes references to it expand. -/
def objectType : String := "object"

/-- What becomes of a reference. -/
inductive Referent where
  /-- It is replaced by a definition. -/
  | inlined (name : String) (target : Json)
  /-- It loses its pointer. -/
  | dropped
  deriving Inhabited

/-- What becomes of a reference with this pointer on this path. -/
def referent (defs : Definitions) (path : List String) (pointer : String) : Except SchemaError Referent :=
  match definitionName pointer with
  | .error e => .error e
  | .ok name =>
    match Assoc.get? defs name with
    | none => .error (.unresolved pointer name)
    | some target =>
      if name ∈ path then .error (.cyclic pointer (path ++ [name]))
      else
        match aliasType defs (path ++ [name]) target with
        | .error e => .error e
        | .ok kind => if kind = some objectType then .ok (.inlined name target) else .ok .dropped

/-- A definition that replaces a reference is known and not open. -/
theorem referent_inlined {defs : Definitions} {path : List String} {pointer name : String} {target : Json}
    (h : referent defs path pointer = .ok (.inlined name target)) :
    Assoc.get? defs name = some target ∧ name ∉ path := by
  unfold referent at h
  split at h
  · simp at h
  · split at h
    · simp at h
    · split at h
      · simp at h
      · split at h
        · simp at h
        · split at h
          · simp only [Except.ok.injEq, Referent.inlined.injEq] at h
            obtain ⟨rfl, rfl⟩ := h
            exact ⟨by assumption, by assumption⟩
          · simp at h

theorem sizeOf_erase_le (members : Members) (key : String) : sizeOf (Assoc.erase members key) ≤ sizeOf members := by
  induction members with
  | nil => simp [Assoc.erase]
  | cons head rest ih =>
    obtain ⟨k, v⟩ := head
    by_cases h : k = key
    · simp only [Assoc.erase, h, if_true, List.cons.sizeOf_spec]
      omega
    · simp only [Assoc.erase, h, if_false, List.cons.sizeOf_spec]
      omega

mutual

/-- A value with its references expanded, on a path of open definitions. -/
def expand (defs : Definitions) (path : List String) : Json → Except SchemaError Json
  | .object members =>
    match pointer? members with
    | some pointer =>
      match _h : referent defs path pointer with
      | .error e => .error e
      | .ok (.inlined name target) => expand defs (path ++ [name]) target
      | .ok .dropped => Json.object <$> expandMembers defs path (siblings members)
    | none => Json.object <$> expandMembers defs path members
  | .array items => Json.array <$> expandItems defs path items
  | value => .ok value
termination_by value => (unopened defs path, sizeOf value)
decreasing_by
  · exact Prod.Lex.left _ _ (unopened_lt (referent_inlined _h).1 (referent_inlined _h).2)
  · refine Prod.Lex.right _ ?_
    have := sizeOf_erase_le members referenceKey
    simp only [siblings, Json.object.sizeOf_spec]
    omega
  · exact Prod.Lex.right _ (by simp)
  · exact Prod.Lex.right _ (by simp)

/-- The items with their references expanded, the first error counting. -/
def expandItems (defs : Definitions) (path : List String) : List Json → Except SchemaError (List Json)
  | [] => .ok []
  | item :: rest => do
    let item ← expand defs path item
    let rest ← expandItems defs path rest
    return item :: rest
termination_by items => (unopened defs path, sizeOf items)

/-- The members with the references in their values expanded, the first error counting. -/
def expandMembers (defs : Definitions) (path : List String) : Members → Except SchemaError Members
  | [] => .ok []
  | (key, value) :: rest => do
    let value ← expand defs path value
    let rest ← expandMembers defs path rest
    return (key, value) :: rest
termination_by members => (unopened defs path, sizeOf members)

end

/-- The entries of a section, each expanded with its own name open. -/
def expandEntries (defs : Definitions) : Members → Except SchemaError Members
  | [] => .ok []
  | (name, value) :: rest => do
    let value ← expand defs [name] value
    let rest ← expandEntries defs rest
    return (name, value) :: rest

/-- A member of a document: the entries of a section one by one, any other value as a whole. -/
def expandTop (defs : Definitions) (key : String) (value : Json) : Except SchemaError Json :=
  match value with
  | .object entries =>
    if key ∈ sectionKeys then Json.object <$> expandEntries defs entries else expand defs [] (.object entries)
  | value => expand defs [] value

/-- The members of a document, each expanded. -/
def expandDocument (defs : Definitions) : Members → Except SchemaError Members
  | [] => .ok []
  | (key, value) :: rest => do
    let value ← expandTop defs key value
    let rest ← expandDocument defs rest
    return (key, value) :: rest

/-- The sections among the members of a document, in the order of merging. -/
def sectionsIn (members : Members) : Members :=
  sectionKeys.filterMap fun key => (Assoc.get? members key).map fun value => (key, value)

/-- The members of a document without a reference at its root: where the root is replaced by a definition
the sections stay, in front of the definition's members and under them. -/
def openRoot (defs : Definitions) (members : Members) : Except SchemaError Members :=
  match pointer? members with
  | none => .ok members
  | some pointer => do
    match ← referent defs [] pointer with
    | .inlined name target =>
      let replacement ← expand defs [name] target
      return Assoc.putAll (sectionsIn members) (replacement.members?.getD [])
    | .dropped => expandMembers defs [] (siblings members)

/-- The document with all its references expanded by the given definitions. -/
def resolveWith (defs : Definitions) : Json → Except SchemaError Json
  | .object members => do
    let members ← openRoot defs members
    return .object (← expandDocument defs members)
  | value => .error (.notAnObject value.kindWord)

/-- The document with all its references expanded by its own definitions. -/
def resolve (document : Json) : Except SchemaError Json := resolveWith (definitionsOf document) document

end VerbForms.Schema
