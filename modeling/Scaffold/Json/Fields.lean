/-!
Fields in the order in which their keys first came. Setting a known key changes its value in place.
-/

namespace Scaffold

namespace Fields

variable {κ α : Type} [DecidableEq κ]

/-- The value of a key. -/
def get? (fields : List (κ × α)) (key : κ) : Option α := fields.lookup key

/-- Sets the value of a key: in place if the key is there, else at the end. -/
def put : List (κ × α) → κ → α → List (κ × α)
  | [], key, value => [(key, value)]
  | (k, v) :: rest, key, value =>
    if k == key then (k, value) :: rest else (k, v) :: put rest key value

/-- Sets every field of `new` in turn. -/
def merge (old new : List (κ × α)) : List (κ × α) :=
  new.foldl (fun fields (key, value) => put fields key value) old

def erase (fields : List (κ × α)) (key : κ) : List (κ × α) :=
  fields.filter fun (k, _) => k != key

theorem get?_put (fields : List (κ × α)) (key other : κ) (value : α) :
    get? (put fields key value) other = if other = key then some value else get? fields other := by
  induction fields with
  | nil =>
    by_cases h : other = key
    · simp [put, get?, h]
    · simp [put, get?, List.lookup_cons, h, beq_eq_false_iff_ne.mpr h]
  | cons field rest ih =>
    obtain ⟨k, v⟩ := field
    simp only [get?] at ih
    by_cases hk : k = key
    · subst hk
      by_cases h : other = k
      · simp [put, get?, h]
      · simp [put, get?, List.lookup_cons, h, beq_eq_false_iff_ne.mpr h]
    · by_cases h : other = k
      · subst h
        simp [put, get?, hk]
      · simp [put, get?, List.lookup_cons, hk, beq_eq_false_iff_ne.mpr h, ih]

end Fields

end Scaffold
