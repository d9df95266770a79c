/-!
Fields in order: lists of keyed values, where the order is part of the meaning.

A list may hold a key twice. `insert` keeps one entry for each key: a repeated
key takes the new value and keeps its first position. `get?` finds the first
entry of a key.
-/

set_option autoImplicit false

namespace YamlTypes.Fields

variable {α : Type}

def get? (key : String) : List (String × α) → Option α
  | [] => none
  | (k, x) :: rest => if k = key then some x else get? key rest

/-- The fields with `key` set: in its place if it is there, and at the end otherwise. -/
def insert (key : String) (x : α) : List (String × α) → List (String × α)
  | [] => [(key, x)]
  | (k, y) :: rest => if k = key then (k, x) :: rest else (k, y) :: insert key x rest

/-- Fields read from first to last, each key kept once. -/
def ofPairs (pairs : List (String × α)) : List (String × α) :=
  pairs.foldl (fun fields pair => insert pair.1 pair.2 fields) []

theorem get?_insert (key other : String) (x : α) (fields : List (String × α)) :
    get? other (insert key x fields) = if key = other then some x else get? other fields := by
  induction fields with
  | nil => simp [insert, get?]
  | cons pair rest ih =>
    obtain ⟨k, y⟩ := pair
    by_cases same : k = key
    · subst same
      by_cases found : k = other <;> simp [insert, get?, found]
    · by_cases found : k = other
      · subst found
        simp [insert, get?, same, Ne.symm same]
      · simp [insert, get?, same, found, ih]

/-- Setting a key adds it at the end or leaves the keys as they are. -/
theorem keys_insert (key : String) (x : α) (fields : List (String × α)) :
    (insert key x fields).map Prod.fst =
      if key ∈ fields.map Prod.fst then fields.map Prod.fst else fields.map Prod.fst ++ [key] := by
  induction fields with
  | nil => simp [insert]
  | cons pair rest ih =>
    obtain ⟨k, y⟩ := pair
    by_cases same : k = key
    · simp [insert, same]
    · by_cases inRest : key ∈ rest.map Prod.fst <;> simp_all [insert, Ne.symm same]

end YamlTypes.Fields
