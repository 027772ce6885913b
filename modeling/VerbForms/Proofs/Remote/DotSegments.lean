import VerbForms.Proofs.Text.Parts
import VerbForms.Remote.Address

/-!
# Dot segments

The dot segments of a path are removed from left to right. Behind a root and some names, a path comes to the
same whatever the names are: it goes up by a number of them and down again by segments of its own (`Course`).
So the place that a path leads to begins with all the names exactly if it goes down again by the very names
that it has gone up by, and further (`prefix_shown_iff`).
-/

namespace VerbForms.Remote

open Text (splitAt)

variable {done segments names : List (List Char)} {segment cs front : List Char} {course : Course}

/-- A segment that does not stay in a path. -/
def IsDot (segment : List Char) : Prop := segment = ['.'] ∨ segment = ['.', '.']

instance (segment : List Char) : Decidable (IsDot segment) :=
  inferInstanceAs (Decidable (segment = ['.'] ∨ segment = ['.', '.']))

/-! ### Removal -/

theorem dropDots_append (done first more : List (List Char)) :
    dropDots done (first ++ more) = dropDots (dropDots done first) more := by
  induction first generalizing done with
  | nil => rfl
  | cons segment first ih =>
    rw [List.cons_append, dropDots, dropDots]
    split
    · exact ih _
    · split
      · exact ih _
      · exact ih _

/-- A segment that is left was there before, and is no dot. -/
theorem mem_dropDots (mem : segment ∈ dropDots done segments) :
    segment ∈ done ∨ segment ∈ segments ∧ ¬IsDot segment := by
  induction segments generalizing done with
  | nil => exact .inl mem
  | cons first rest ih =>
    rw [dropDots] at mem
    split at mem
    · exact (ih mem).imp_right fun later ↦ ⟨List.mem_cons_of_mem _ later.1, later.2⟩
    · next noDot =>
      split at mem
      · rcases ih mem with before | later
        · left
          split at before
          · exact before
          · exact (List.dropLast_sublist _).subset before
        · exact .inr ⟨List.mem_cons_of_mem _ later.1, later.2⟩
      · next noDots =>
        rcases ih mem with before | later
        · rcases List.mem_append.mp before with old | new
          · exact .inl old
          · obtain rfl := List.mem_singleton.mp new
            exact .inr ⟨List.mem_cons_self, not_or.mpr ⟨noDot, noDots⟩⟩
        · exact .inr ⟨List.mem_cons_of_mem _ later.1, later.2⟩

/-- Segments that are no dots stay. -/
theorem dropDots_of_plain (plain : ∀ segment ∈ segments, ¬IsDot segment) (done : List (List Char)) :
    dropDots done segments = done ++ segments := by
  induction segments generalizing done with
  | nil => exact (List.append_nil done).symm
  | cons segment rest ih =>
    obtain ⟨here, later⟩ := List.forall_mem_cons.mp plain
    obtain ⟨noDot, noDots⟩ := not_or.mp here
    rw [dropDots, if_neg noDot, if_neg noDots, ih later, List.append_assoc, List.singleton_append]

theorem normalizePath_eq (path : List Char) :
    normalizePath path = ['/'].intercalate (dropDots [] (splitAt '/' path)) := by
  unfold normalizePath
  dsimp only
  split
  · rfl
  · next dotless =>
    simp only [Bool.or_eq_true, List.contains_iff_mem, not_or] at dotless
    have plain : ∀ segment ∈ splitAt '/' path, ¬IsDot segment := by
      rintro segment mem (rfl | rfl)
      · exact dotless.1 mem
      · exact dotless.2 mem
    rw [dropDots_of_plain plain, List.nil_append, Text.intercalate_splitAt]

/-! ### Courses -/

/-- Where a path leads from any place: up by a number of names, and down again by segments. -/
structure Course where
  up : Nat
  down : List (List Char)
  deriving DecidableEq, Repr

namespace Course

/-- Where one more segment leads. -/
def next (course : Course) (segment : List Char) : Course :=
  if segment = ['.'] then course
  else if segment = ['.', '.'] then
    if course.down = [] then ⟨course.up + 1, []⟩ else { course with down := course.down.dropLast }
  else { course with down := course.down ++ [segment] }

/-- The course of a path. -/
def ofSegments (segments : List (List Char)) : Course := segments.foldl next ⟨0, []⟩

/-- The place that a course leads to from some names below the root. -/
def place (course : Course) (names : List (List Char)) : List (List Char) :=
  names.take (names.length - course.up) ++ course.down

/-- The course leads to a place below the names: it goes down again by the names that it has gone up by, and
further. Nothing leads out of the root. -/
def StaysBelow (course : Course) (names : List (List Char)) : Prop :=
  names = [] ∨ ∃ more, more ≠ [] ∧ course.down = names.drop (names.length - course.up) ++ more

/-- The course of a path without dot segments. -/
theorem ofSegments_of_plain (plain : ∀ segment ∈ segments, ¬IsDot segment) :
    ofSegments segments = ⟨0, segments⟩ := by
  have steps (down : List (List Char)) : segments.foldl next ⟨0, down⟩ = ⟨0, down ++ segments⟩ := by
    induction segments generalizing down with
    | nil => rw [List.append_nil, List.foldl_nil]
    | cons segment rest ih =>
      obtain ⟨here, later⟩ := List.forall_mem_cons.mp plain
      obtain ⟨noDot, noDots⟩ := not_or.mp here
      rw [List.foldl_cons, next, if_neg noDot, if_neg noDots, ih later, List.append_assoc,
        List.singleton_append]
  exact steps []

/-- A path without dot segments stays below any names. -/
theorem staysBelow_of_plain (plain : ∀ segment ∈ segments, ¬IsDot segment) (some : segments ≠ [])
    (names : List (List Char)) : (ofSegments segments).StaysBelow names := by
  refine .inr ⟨segments, some, ?_⟩
  rw [ofSegments_of_plain plain, Nat.sub_zero, List.drop_length, List.nil_append]

end Course

/-- Two dots take the last name away, if there is one. -/
theorem place_next_dots (course : Course) (names : List (List Char)) :
    (course.next ['.', '.']).place names = (course.place names).dropLast := by
  obtain ⟨up, down⟩ := course
  rw [Course.next, if_neg (by decide), if_pos rfl]
  by_cases low : down = []
  · subst low
    rw [if_pos rfl, Course.place, Course.place, List.append_nil, List.append_nil, List.dropLast_eq_take,
      List.take_take, List.length_take]
    congr 1
    dsimp only
    omega
  · rw [if_neg low, Course.place, Course.place, List.dropLast_append_of_ne_nil low]

/-- The removal of dot segments takes each step of a course. -/
theorem dropDots_place_singleton (course : Course) (names : List (List Char)) (segment : List Char) :
    dropDots ([] :: course.place names) [segment] = [] :: (course.next segment).place names := by
  rw [dropDots, dropDots, dropDots, dropDots]
  by_cases dot : segment = ['.']
  · rw [if_pos dot, Course.next, if_pos dot]
  · rw [if_neg dot]
    by_cases dots : segment = ['.', '.']
    · subst dots
      rw [if_pos rfl, place_next_dots]
      cases course.place names with
      | nil => rfl
      | cons name rest => rw [if_neg (by simp), List.dropLast_cons_of_ne_nil (List.cons_ne_nil _ _)]
    · rw [if_neg dots, Course.next, if_neg dot, if_neg dots, Course.place, Course.place, List.cons_append,
        List.append_assoc]

/-- **Where a path leads from some names below a root.** -/
theorem dropDots_rooted (names segments : List (List Char)) :
    dropDots ([] :: names) segments = [] :: (Course.ofSegments segments).place names := by
  have steps (course : Course) : dropDots ([] :: course.place names) segments =
      [] :: (segments.foldl Course.next course).place names := by
    induction segments generalizing course with
    | nil => rfl
    | cons segment rest ih =>
      have first : dropDots ([] :: course.place names) (segment :: rest) =
          dropDots (dropDots ([] :: course.place names) [segment]) rest := dropDots_append _ [segment] rest
      rw [first, dropDots_place_singleton, ih, List.foldl_cons]
  have start := steps ⟨0, []⟩
  rwa [Course.place, Nat.sub_zero, List.take_length, List.append_nil] at start

/-! ### Places below names -/

/-- A path as a request has it: an empty one is the root. -/
def shown (path : List Char) : List Char := if path.isEmpty then ['/'] else path

/-- A path begins with another one and a slash if it has the same segments first, and more. -/
theorem prefix_intercalate_iff (plain : ∀ segment ∈ segments, '/' ∉ segment) (some : segments ≠ []) :
    front ++ ['/'] <+: ['/'].intercalate segments ↔
      ∃ more, more ≠ [] ∧ segments = splitAt '/' front ++ more := by
  constructor
  · rintro ⟨rest, same⟩
    refine ⟨splitAt '/' rest, Text.splitAt_ne_nil _ _, ?_⟩
    rw [← Text.splitAt_intercalate plain some, ← same, List.append_assoc, List.singleton_append,
      Text.splitAt_append_cons]
  · rintro ⟨more, behind, rfl⟩
    have plainMore : ∀ segment ∈ more, '/' ∉ segment := fun segment mem ↦
      plain segment (List.mem_append_right _ mem)
    have whole : splitAt '/' (front ++ '/' :: ['/'].intercalate more) = splitAt '/' front ++ more := by
      rw [Text.splitAt_append_cons, Text.splitAt_intercalate plainMore behind]
    rw [← whole, Text.intercalate_splitAt]
    exact ⟨['/'].intercalate more, List.append_assoc _ _ _⟩

/-- The place begins with all the names, and goes further, exactly if the course goes down again by the
names that it has gone up by, and further. -/
theorem place_eq_append_iff (course : Course) (names more : List (List Char)) :
    course.place names = names ++ more ↔ course.down = names.drop (names.length - course.up) ++ more := by
  have parts : names ++ more = names.take (names.length - course.up) ++
      (names.drop (names.length - course.up) ++ more) := by
    rw [← List.append_assoc, List.take_append_drop]
  rw [Course.place, parts, List.append_right_inj]

/-- **A path leads to a place below some names** exactly if its course stays below them. -/
theorem prefix_shown_iff (names_eq : splitAt '/' front = [] :: names)
    (plain : ∀ segment ∈ course.place names, '/' ∉ segment) :
    front ++ ['/'] <+: shown (['/'].intercalate ([] :: course.place names)) ↔ course.StaysBelow names := by
  have plain : ∀ segment ∈ [] :: course.place names, '/' ∉ segment :=
    List.forall_mem_cons.mpr ⟨List.not_mem_nil, plain⟩
  have cut := Text.splitAt_intercalate plain (List.cons_ne_nil _ _)
  have below : front ++ ['/'] <+: ['/'].intercalate ([] :: course.place names) ↔
      ∃ more, more ≠ [] ∧ course.down = names.drop (names.length - course.up) ++ more := by
    rw [prefix_intercalate_iff plain (List.cons_ne_nil _ _), names_eq]
    simp only [List.cons_append, List.cons.injEq, true_and, place_eq_append_iff]
  have front_eq : front = ['/'].intercalate ([] :: names) := by rw [← names_eq, Text.intercalate_splitAt]
  rw [Course.StaysBelow]
  by_cases empty : ['/'].intercalate ([] :: course.place names) = []
  · -- The path is empty, which means the root: nothing has gone down.
    rw [empty] at cut ⊢
    have place : course.place names = [] := (List.cons.inj cut).2.symm
    constructor
    · intro root
      left
      have short := root.length_le
      have none : front = [] := List.eq_nil_of_length_eq_zero (by simpa [shown] using short)
      rw [none] at names_eq
      exact (List.cons.inj names_eq).2.symm
    · rintro (rfl | ⟨more, behind, down⟩)
      · rw [front_eq]
        exact List.prefix_rfl
      · rw [(List.append_eq_nil_iff.mp place).2] at down
        exact absurd (List.append_eq_nil_iff.mp down.symm).2 behind
  · rw [shown, if_neg (by simpa using empty), below]
    refine ⟨.inr, fun stays ↦ stays.elim (fun root ↦ ?_) id⟩
    subst root
    refine ⟨course.down, fun none ↦ empty ?_, by simp⟩
    rw [Course.place, none, List.take_nil]
    rfl

end VerbForms.Remote
