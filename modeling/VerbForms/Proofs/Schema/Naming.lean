import Mathlib.Data.List.Basic
import VerbForms.Proofs.Schema.Pointer
import VerbForms.Proofs.Text.Blank

/-!
# Names that pointers can hold

Blanks around a pointer do not count, so a pointer can hold every name that is not empty, has no slash
and does not end in a blank: behind a start such a name is read as it stands, whatever else is in it
(`names_iff_pointsAt`). A definition of any other name is out of reach, since no text is a pointer to it.
-/

namespace VerbForms.Schema

variable {pointer name : String} {start : List Char}

/-- A name that pointers can hold. A blank at its end would count as one behind the pointer. -/
structure IsNameable (name : String) : Prop where
  nonempty : name ≠ ""
  noSlash : '/' ∉ name.toList
  last : ∀ c, name.toList.getLast? = some c → Text.isBlank c = false

/-- The pointers to a name, one into each section, without blanks around them. -/
def pointersTo (name : String) : List String := ["#/$defs/" ++ name, "#/definitions/" ++ name]

/-- The text is a pointer to the name, with any blanks in front of it and behind it. -/
def PointsAt (pointer name : String) : Prop :=
  ∃ plain ∈ pointersTo name, ∃ front back, (∀ c ∈ front, Text.isBlank c = true) ∧
    (∀ c ∈ back, Text.isBlank c = true) ∧ pointer.toList = front ++ plain.toList ++ back

theorem mem_pointersTo_iff {text : String} :
    text ∈ pointersTo name ↔ ∃ start ∈ pointerStarts, text.toList = start ++ name.toList := by
  simp only [pointersTo, pointerStarts, List.mem_cons, List.not_mem_nil, or_false, exists_eq_or_imp,
    exists_eq_left, ← String.toList_inj, String.toList_append]
  exact or_comm

/-- A text names a definition if it is one of the pointers to it, but for the blanks around it. -/
theorem names_iff_trim :
    Names pointer name ↔ Text.trim pointer ∈ pointersTo name ∧ name ≠ "" ∧ '/' ∉ name.toList := by
  rw [mem_pointersTo_iff, Text.trim, String.toList_ofList]
  constructor
  · rintro ⟨start, isStart, text, named⟩
    exact ⟨⟨start, isStart, text⟩, named⟩
  · rintro ⟨⟨start, isStart, text⟩, named⟩
    exact ⟨start, isStart, text, named⟩

/-! ### Between blanks -/

/-- A pointer begins with no blank, and it ends in one if its name does. -/
theorem isTrimmed_append_iff (isStart : start ∈ pointerStarts) (nonempty : name ≠ "") :
    Text.IsTrimmed (start ++ name.toList) ↔
      ∀ c, name.toList.getLast? = some c → Text.isBlank c = false := by
  have sameEnd : (start ++ name.toList).getLast? = name.toList.getLast? :=
    List.getLast?_append_of_ne_nil _ (String.toList_eq_nil_iff.not.mpr nonempty)
  have sign : start.head? = some '#' := by
    simp only [pointerStarts, List.mem_cons, List.not_mem_nil, or_false] at isStart
    rcases isStart with rfl | rfl
    · rfl
    · rfl
  constructor
  · intro trimmed
    rw [← sameEnd]
    exact trimmed.last
  · intro last
    refine ⟨fun c first ↦ ?_, sameEnd ▸ last⟩
    rw [List.head?_append, sign] at first
    obtain rfl := Option.some.inj first
    rfl

/-- **The grammar of pointers.** A text names a definition if it is one of the pointers to it, between
blanks, and the name is one that pointers can hold. -/
theorem names_iff_pointsAt : Names pointer name ↔ IsNameable name ∧ PointsAt pointer name := by
  constructor
  · rintro ⟨start, isStart, text, nonempty, noSlash⟩
    obtain ⟨trimmed, front, back, frontBlank, backBlank, chars⟩ := Text.trimChars_eq_iff.mp text
    have plain : (String.ofList (start ++ name.toList)).toList = start ++ name.toList :=
      String.toList_ofList
    refine ⟨⟨nonempty, noSlash, (isTrimmed_append_iff isStart nonempty).mp trimmed⟩, _,
      mem_pointersTo_iff.mpr ⟨start, isStart, plain⟩, front, back, frontBlank, backBlank, ?_⟩
    rw [plain, chars]
  · rintro ⟨nameable, plain, isPointer, front, back, frontBlank, backBlank, chars⟩
    obtain ⟨start, isStart, text⟩ := mem_pointersTo_iff.mp isPointer
    have trimmed := (isTrimmed_append_iff isStart nameable.nonempty).mpr nameable.last
    rw [text] at chars
    exact ⟨start, isStart,
      Text.trimChars_eq_iff.mpr ⟨trimmed, front, back, frontBlank, backBlank, chars⟩,
      nameable.nonempty, nameable.noSlash⟩

/-! ### Names in reach -/

/-- The pointers to a name that they can hold name it as they stand. -/
theorem IsNameable.names (nameable : IsNameable name) (isPointer : pointer ∈ pointersTo name) :
    Names pointer name :=
  names_iff_pointsAt.mpr ⟨nameable, pointer, isPointer, [], [], nofun, nofun, by simp⟩

/-- **Pointers are read by their grammar.** A text is read as a pointer to a name exactly if it is one of
the two pointers to it, but for the blanks around it, and the name is neither empty nor a path. These are
the texts with such a pointer between blanks, where the name does not end in one; any other text is
refused as it stands. Both pointers to a name are read as pointers to it exactly if it is one that
pointers can hold, and no text at all is read as a pointer to another name. -/
theorem pointers_are_read_by_grammar (pointer name : String) :
    (definitionName pointer = .ok name ↔
      Text.trim pointer ∈ pointersTo name ∧ name ≠ "" ∧ '/' ∉ name.toList) ∧
    (definitionName pointer = .ok name ↔ IsNameable name ∧ PointsAt pointer name) ∧
    (definitionName pointer = .error (.unsupported pointer) ↔
      ∀ other, ¬ (Text.trim pointer ∈ pointersTo other ∧ other ≠ "" ∧ '/' ∉ other.toList)) ∧
    (IsNameable name ↔ ∀ plain ∈ pointersTo name, definitionName plain = .ok name) ∧
    (IsNameable name ↔ ∃ other, definitionName other = .ok name) := by
  have reached (nameable : IsNameable name) : ∀ plain ∈ pointersTo name, definitionName plain = .ok name :=
    fun _ isPointer ↦ definitionName_eq_ok_iff.mpr (nameable.names isPointer)
  have held {other : String} (named : definitionName other = .ok name) : IsNameable name :=
    (names_iff_pointsAt.mp (definitionName_eq_ok_iff.mp named)).1
  refine ⟨definitionName_eq_ok_iff.trans names_iff_trim, definitionName_eq_ok_iff.trans names_iff_pointsAt,
    ?_, ⟨reached, fun both ↦ ?_⟩, ⟨fun nameable ↦ ?_, fun ⟨_, named⟩ ↦ held named⟩⟩
  · simp only [definitionName_eq_error_iff, names_iff_trim, and_true]
  · exact held (both _ List.mem_cons_self)
  · exact ⟨_, reached nameable _ List.mem_cons_self⟩

/-- Blanks in front of a name and inside it belong to the name, those behind it do not. -/
example : definitionName "\u3000#/$defs/ pet tag\t" = .ok " pet tag" := by decide

end VerbForms.Schema
