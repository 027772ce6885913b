/-!
# Association lists in insertion order

A list of pairs is read as a map whose order can be seen: writing to a key that is present keeps the
key's place, writing to a new key puts it last. The main statements describe each operation by what
a later look-up gives.
-/

namespace VerbForms.Assoc

variable {κ α β : Type} [DecidableEq κ]

/-- The value under a key. -/
def get? : List (κ × α) → κ → Option α
  | [], _ => none
  | (k, v) :: rest, key => if k = key then some v else get? rest key

/-- Whether a key is present. -/
def contains (entries : List (κ × α)) (key : κ) : Bool := (get? entries key).isSome

/-- Write under a key: in its place if it is present, else last. -/
def put : List (κ × α) → κ → α → List (κ × α)
  | [], key, value => [(key, value)]
  | (k, v) :: rest, key, value => if k = key then (k, value) :: rest else (k, v) :: put rest key value

/-- Remove a key. -/
def erase : List (κ × α) → κ → List (κ × α)
  | [], _ => []
  | (k, v) :: rest, key => if k = key then rest else (k, v) :: erase rest key

/-- Write all pairs of the second list into the first, one after the other. -/
def putAll (entries added : List (κ × α)) : List (κ × α) :=
  added.foldl (fun acc entry => put acc entry.1 entry.2) entries

/-- The keys, in order. -/
def keys (entries : List (κ × α)) : List κ := entries.map Prod.fst

@[simp] theorem get?_nil (key : κ) : get? ([] : List (κ × α)) key = none := rfl

theorem get?_put_self (entries : List (κ × α)) (key : κ) (value : α) :
    get? (put entries key value) key = some value := by
  induction entries with
  | nil => simp [put, get?]
  | cons head rest ih => by_cases h : head.1 = key <;> simp [put, get?, h, ih]

theorem get?_put_of_ne {key other : κ} (h : key ≠ other) (entries : List (κ × α)) (value : α) :
    get? (put entries key value) other = get? entries other := by
  induction entries with
  | nil => simp [put, get?, h]
  | cons head rest ih =>
    by_cases hk : head.1 = key
    · simp [put, get?, hk, h]
    · simp only [put, hk, if_false, get?, ih]

theorem get?_erase_of_ne {key other : κ} (h : key ≠ other) (entries : List (κ × α)) :
    get? (erase entries key) other = get? entries other := by
  induction entries with
  | nil => rfl
  | cons head rest ih =>
    by_cases hk : head.1 = key
    · simp [erase, get?, hk, h]
    · simp only [erase, hk, if_false, get?, ih]

theorem mem_keys_iff (entries : List (κ × α)) (key : κ) :
    key ∈ keys entries ↔ (get? entries key).isSome := by
  induction entries with
  | nil => simp [keys, get?]
  | cons head rest ih =>
    by_cases h : head.1 = key
    · simp [keys, get?, h]
    · have hne : ¬ key = head.1 := fun e => h e.symm
      simp only [keys, List.map_cons, List.mem_cons, get?, h, if_false, hne, false_or]
      exact ih

/-- A new key comes last and an old one keeps its place. -/
theorem keys_put (entries : List (κ × α)) (key : κ) (value : α) :
    keys (put entries key value) = if key ∈ keys entries then keys entries else keys entries ++ [key] := by
  induction entries with
  | nil => simp [put, keys]
  | cons head rest ih =>
    by_cases h : head.1 = key
    · simp [put, keys, h]
    · have hne : ¬ key = head.1 := fun e => h e.symm
      simp only [keys] at ih
      simp only [put, keys, h, if_false, List.map_cons, List.mem_cons, hne, false_or, ih]
      by_cases hm : key ∈ rest.map Prod.fst <;> simp [hm]

end VerbForms.Assoc
