import VerbForms.Text.Digits
import Mathlib.Logic.Basic

/-!
# Parts between separators

Cutting a text at a separator and joining parts with it are inverse to each other: the parts of a text give
the text back (`intercalate_splitAt`), and parts without the separator are found again
(`splitAt_intercalate`).
-/

namespace VerbForms.Text

variable {separator : Char} {cs part : List Char} {parts : List (List Char)}

theorem splitAt_eq_splitOn (separator : Char) (cs : List Char) :
    splitAt separator cs = cs.splitOn separator := by
  induction cs with
  | nil => exact (List.splitOn_nil separator).symm
  | cons c cs ih =>
    rw [splitAt, ih, List.splitOn_cons_eq_if_modifyHead]
    cases rest : cs.splitOn separator with
    | nil => exact absurd rest (List.splitOn_ne_nil _ _)
    | cons part parts => simp only [List.modifyHead_cons, beq_iff_eq]

theorem splitAt_ne_nil (separator : Char) (cs : List Char) : splitAt separator cs ≠ [] := by
  rw [splitAt_eq_splitOn]
  exact List.splitOn_ne_nil _ _

/-- A text is cut at each separator in it. -/
theorem splitAt_append_cons (separator : Char) (cs more : List Char) :
    splitAt separator (cs ++ separator :: more) = splitAt separator cs ++ splitAt separator more := by
  rw [splitAt_eq_splitOn, splitAt_eq_splitOn, splitAt_eq_splitOn, List.splitOn_append_cons_self]

/-- The parts of a text give the text back. -/
theorem intercalate_splitAt (separator : Char) (cs : List Char) :
    [separator].intercalate (splitAt separator cs) = cs := by
  rw [splitAt_eq_splitOn]
  exact List.intercalate_splitOn separator

/-- Parts without the separator are found again. -/
theorem splitAt_intercalate (plain : ∀ part ∈ parts, separator ∉ part) (some : parts ≠ []) :
    splitAt separator ([separator].intercalate parts) = parts := by
  rw [splitAt_eq_splitOn]
  exact List.splitOn_intercalate separator plain some

theorem splitAt_cons_of_ne {c : Char} (other : c ≠ separator) (cs : List Char) :
    splitAt separator (c :: cs) = (splitAt separator cs).modifyHead (c :: ·) := by
  rw [splitAt_eq_splitOn, splitAt_eq_splitOn, List.splitOn_cons_eq_if_modifyHead,
    if_neg (by simpa using other)]

theorem splitAt_cons_self (separator : Char) (cs : List Char) :
    splitAt separator (separator :: cs) = [] :: splitAt separator cs :=
  splitAt_append_cons separator [] cs

/-- No part has the separator in it, and every part belongs to the text. -/
theorem of_mem_splitAt (mem : part ∈ splitAt separator cs) : separator ∉ part ∧ part ⊆ cs := by
  induction cs generalizing part with
  | nil =>
    rw [List.mem_singleton.mp mem]
    exact ⟨List.not_mem_nil, List.nil_subset _⟩
  | cons c cs ih =>
    by_cases here : c = separator
    · subst here
      rw [splitAt_cons_self] at mem
      rcases List.mem_cons.mp mem with rfl | later
      · exact ⟨List.not_mem_nil, List.nil_subset _⟩
      · exact ⟨(ih later).1, fun d there ↦ List.mem_cons_of_mem _ ((ih later).2 there)⟩
    · rw [splitAt_cons_of_ne here] at mem
      cases parts : splitAt separator cs with
      | nil => exact absurd parts (splitAt_ne_nil _ _)
      | cons first rest =>
        rw [parts] at ih mem
        rcases List.mem_cons.mp mem with rfl | later
        · obtain ⟨plain, own⟩ := ih List.mem_cons_self
          refine ⟨?_, List.cons_subset_cons _ own⟩
          rw [List.mem_cons, not_or]
          exact ⟨Ne.symm here, plain⟩
        · obtain ⟨plain, own⟩ := ih (List.mem_cons_of_mem _ later)
          exact ⟨plain, fun d there ↦ List.mem_cons_of_mem _ (own there)⟩

/-- What is put in front of a text without a separator belongs to its first part. -/
theorem splitAt_append_of_not_mem {front : List Char} (plain : separator ∉ front) (cs : List Char) :
    splitAt separator (front ++ cs) = (splitAt separator cs).modifyHead (front ++ ·) := by
  induction front with
  | nil => exact (congrFun List.modifyHead_id _).symm
  | cons c front ih =>
    obtain ⟨other, rest⟩ := not_or.mp (List.mem_cons.not.mp plain)
    rw [List.cons_append, splitAt_cons_of_ne (Ne.symm other), ih rest, List.modifyHead_modifyHead]
    rfl

/-- A text whose separators alone are spelt as separators is spelt part by part. -/
theorem splitAt_flatMap {spell : Char → List Char} (kept : spell separator = [separator])
    (plain : ∀ c, c ≠ separator → separator ∉ spell c) (cs : List Char) :
    splitAt separator (cs.flatMap spell) = (splitAt separator cs).map (·.flatMap spell) := by
  induction cs with
  | nil => rfl
  | cons c cs ih =>
    rw [List.flatMap_cons]
    by_cases here : c = separator
    · subst here
      rw [kept, List.singleton_append, splitAt_cons_self, splitAt_cons_self, ih]
      rfl
    · rw [splitAt_append_of_not_mem (plain c here), ih, splitAt_cons_of_ne here]
      cases splitAt separator cs with
      | nil => rfl
      | cons first rest => rfl

end VerbForms.Text
