import VerbForms.Schema.Pointer

/-!
# Well-formed pointers

`Names` says which texts point at which names: blanks aside, a pointer is one of the two starts and
then the name. Reading a pointer finds exactly this name (`definitionName_eq_ok_iff`) and refuses
everything else as it stands (`definitionName_eq_error_iff`).
-/

namespace VerbForms.Schema

variable {pointer name : String}

/-- A pointer names a definition: between blanks stands one of the starts and then a name, which is
not empty and has no slash. -/
def Names (pointer name : String) : Prop :=
  ∃ start ∈ pointerStarts, Text.trimChars pointer.toList = start ++ name.toList ∧
    name ≠ "" ∧ '/' ∉ name.toList

theorem behind?_eq_some_iff {start cs rest : List Char} :
    behind? start cs = some rest ↔ cs = start ++ rest := by
  rw [behind?]
  split
  · next starts =>
    obtain ⟨tail, rfl⟩ := List.isPrefixOf_iff_prefix.mp starts
    simp
  · next other =>
    refine ⟨fun found ↦ (by cases found), fun same ↦ ?_⟩
    exact absurd (List.isPrefixOf_iff_prefix.mpr ⟨rest, same.symm⟩) other

theorem isName_toList : isName name.toList = true ↔ name ≠ "" ∧ '/' ∉ name.toList := by
  simp [isName]

/-- No pointer has both starts. -/
theorem pointerStarts_apart {start other cs ds : List Char} (first : start ∈ pointerStarts)
    (second : other ∈ pointerStarts) (same : start ++ cs = other ++ ds) : start = other := by
  simp only [pointerStarts, List.mem_cons, List.not_mem_nil, or_false] at first second
  rcases first with rfl | rfl <;> rcases second with rfl | rfl
  · rfl
  · simp at same
  · simp at same
  · rfl

private theorem names_of_definitionName (found : definitionName pointer = .ok name) :
    Names pointer name := by
  rw [definitionName] at found
  split at found
  · next letters hasStart =>
    split at found
    · next isName =>
      obtain rfl := Except.ok.inj found
      obtain ⟨start, mem, behind⟩ := List.exists_of_findSome?_eq_some hasStart
      rw [← String.toList_ofList (l := letters), isName_toList] at isName
      refine ⟨start, mem, ?_, isName⟩
      rw [String.toList_ofList]
      exact behind?_eq_some_iff.mp behind
    · cases found
  · cases found

private theorem definitionName_of_names (names : Names pointer name) :
    definitionName pointer = .ok name := by
  obtain ⟨start, mem, text, named⟩ := names
  have here := behind?_eq_some_iff.mpr text
  rw [definitionName]
  cases found : pointerStarts.findSome? (behind? · (Text.trimChars pointer.toList)) with
  | none =>
    rw [List.findSome?_eq_none_iff] at found
    rw [found start mem] at here
    cases here
  | some letters =>
    obtain ⟨other, memOther, behind⟩ := List.exists_of_findSome?_eq_some found
    have same := behind?_eq_some_iff.mp behind
    rw [text] at same
    obtain rfl := pointerStarts_apart mem memOther same
    obtain rfl := List.append_cancel_left same
    simp only [isName_toList.mpr named, if_true, String.ofList_toList]

/-- Reading a pointer finds the name that it names. -/
theorem definitionName_eq_ok_iff : definitionName pointer = .ok name ↔ Names pointer name :=
  ⟨names_of_definitionName, definitionName_of_names⟩

theorem Names.unique {other : String} (names : Names pointer name) (names' : Names pointer other) :
    name = other :=
  Except.ok.inj ((definitionName_of_names names).symm.trans (definitionName_of_names names'))

private theorem error_of_definitionName {e : SchemaError} (failed : definitionName pointer = .error e) :
    e = .unsupported pointer := by
  rw [definitionName] at failed
  split at failed
  · split at failed
    · cases failed
    · exact (Except.error.inj failed).symm
  · exact (Except.error.inj failed).symm

/-- A pointer that names nothing is refused as it stands. -/
theorem definitionName_eq_error_iff {e : SchemaError} :
    definitionName pointer = .error e ↔ (∀ name, ¬ Names pointer name) ∧ e = .unsupported pointer := by
  constructor
  · intro failed
    refine ⟨fun name names ↦ ?_, error_of_definitionName failed⟩
    rw [definitionName_of_names names] at failed
    cases failed
  · rintro ⟨noName, rfl⟩
    cases found : definitionName pointer with
    | ok name => exact absurd (names_of_definitionName found) (noName name)
    | error e => rw [error_of_definitionName found]

end VerbForms.Schema
