/-!
# Computations that can fail

What a successful computation has computed on the way, and where a failed one has failed.
-/

namespace VerbForms

variable {ε α β : Type}

theorem bind_eq_ok {x : Except ε α} {f : α → Except ε β} {result : β} :
    (x >>= f) = .ok result ↔ ∃ a, x = .ok a ∧ f a = .ok result := by
  cases x with
  | error e => simp [bind, Except.bind]
  | ok a => simp [bind, Except.bind]

theorem map_eq_ok {x : Except ε α} {f : α → β} {result : β} :
    (f <$> x) = .ok result ↔ ∃ a, x = .ok a ∧ f a = result := by
  cases x with
  | error e => simp [Functor.map, Except.map]
  | ok a => simp [Functor.map, Except.map]

theorem bind_eq_error {x : Except ε α} {f : α → Except ε β} {e : ε} :
    (x >>= f) = .error e ↔ x = .error e ∨ ∃ a, x = .ok a ∧ f a = .error e := by
  cases x with
  | error e => simp [bind, Except.bind]
  | ok a => simp [bind, Except.bind]

theorem map_eq_error {x : Except ε α} {f : α → β} {e : ε} :
    (f <$> x) = .error e ↔ x = .error e := by
  cases x with
  | error e => simp [Functor.map, Except.map]
  | ok a => simp [Functor.map, Except.map]

theorem pure_eq_ok {a result : α} : (pure a : Except ε α) = .ok result ↔ a = result :=
  ⟨Except.ok.inj, congrArg Except.ok⟩

theorem mapError_eq_ok {ε' : Type} {x : Except ε α} {f : ε → ε'} {result : α} :
    x.mapError f = .ok result ↔ x = .ok result := by
  cases x with
  | error e =>
    show Except.error (f e) = .ok result ↔ Except.error e = .ok result
    simp
  | ok a =>
    show Except.ok a = .ok result ↔ Except.ok a = .ok result
    simp

end VerbForms
