import YamlTypes.Value

/-!
What stands anywhere in a value: its keys, its numbers and its parts.
-/

set_option autoImplicit false

namespace YamlTypes.Value

@[elab_as_elim]
theorem induct {motive : Value → Prop} (null : motive .null) (undefined : motive .undefined)
    (bool : ∀ b, motive (.bool b)) (number : ∀ x, motive (.number x))
    (string : ∀ s, motive (.string s))
    (array : ∀ items : List Value, (∀ item ∈ items, motive item) → motive (.array items))
    (object : ∀ fields : List (String × Value),
      (∀ field ∈ fields, motive field.2) → motive (.object fields))
    (tagged : ∀ tag, motive (.tagged tag)) (value : Value) : motive value := by
  refine @Value.rec motive (fun items => ∀ item ∈ items, motive item)
    (fun fields => ∀ field ∈ fields, motive field.2) (fun field => motive field.2)
    null undefined bool number string array object tagged ?_ ?_ ?_ ?_ ?_ value
  all_goals simp_all

mutual

@[simp]
def keys : Value → List String
  | .array items => keysOfItems items
  | .object fields => keysOfFields fields
  | .null | .undefined | .bool _ | .number _ | .string _ | .tagged _ => []

@[simp]
def keysOfItems : List Value → List String
  | [] => []
  | item :: rest => item.keys ++ keysOfItems rest

@[simp]
def keysOfFields : List (String × Value) → List String
  | [] => []
  | (key, value) :: rest => key :: (value.keys ++ keysOfFields rest)

end

mutual

@[simp]
def numbers : Value → List Double
  | .number x => [x]
  | .array items => numbersOfItems items
  | .object fields => numbersOfFields fields
  | .null | .undefined | .bool _ | .string _ | .tagged _ => []

@[simp]
def numbersOfItems : List Value → List Double
  | [] => []
  | item :: rest => item.numbers ++ numbersOfItems rest

@[simp]
def numbersOfFields : List (String × Value) → List Double
  | [] => []
  | (_, value) :: rest => value.numbers ++ numbersOfFields rest

end

theorem keys_array (items : List Value) : (array items).keys = items.flatMap keys := by
  simp only [keys]
  induction items with
  | nil => rfl
  | cons item rest inductionHypothesis => simp [inductionHypothesis]

theorem keys_object (fields : List (String × Value)) :
    (object fields).keys = fields.flatMap fun field => field.1 :: field.2.keys := by
  simp only [keys]
  induction fields with
  | nil => rfl
  | cons field rest inductionHypothesis => simp [inductionHypothesis]

theorem numbers_array (items : List Value) : (array items).numbers = items.flatMap numbers := by
  simp only [numbers]
  induction items with
  | nil => rfl
  | cons item rest inductionHypothesis => simp [inductionHypothesis]

theorem numbers_object (fields : List (String × Value)) :
    (object fields).numbers = fields.flatMap fun field => field.2.numbers := by
  simp only [numbers]
  induction fields with
  | nil => rfl
  | cons field rest inductionHypothesis => simp [inductionHypothesis]

theorem forall_mem_keys_array {p : String → Prop} {items : List Value} :
    (∀ key ∈ (array items).keys, p key) ↔ ∀ item ∈ items, ∀ key ∈ item.keys, p key := by
  rw [keys_array, List.forall_mem_flatMap]

theorem forall_mem_keys_object {p : String → Prop} {fields : List (String × Value)} :
    (∀ key ∈ (object fields).keys, p key) ↔
      ∀ field ∈ fields, p field.1 ∧ ∀ key ∈ field.2.keys, p key := by
  simp only [keys_object, List.forall_mem_flatMap, List.forall_mem_cons]

theorem forall_mem_numbers_array {p : Double → Prop} {items : List Value} :
    (∀ x ∈ (array items).numbers, p x) ↔ ∀ item ∈ items, ∀ x ∈ item.numbers, p x := by
  rw [numbers_array, List.forall_mem_flatMap]

theorem forall_mem_numbers_object {p : Double → Prop} {fields : List (String × Value)} :
    (∀ x ∈ (object fields).numbers, p x) ↔
      ∀ field ∈ fields, ∀ x ∈ field.2.numbers, p x := by
  rw [numbers_object, List.forall_mem_flatMap]

inductive Step where
  | field (position : Nat)
  | item
  deriving DecidableEq, Repr

/-- The parts of a value, each with the steps that lead to it. -/
inductive Within (value : Value) : List Step → Value → Prop
  | whole : Within value [] value
  | item {path : List Step} {items : List Value} {item : Value} :
      Within value path (.array items) → item ∈ items → Within value (path ++ [.item]) item
  | field {path : List Step} {fields : List (String × Value)} {position : Nat}
      {field : String × Value} :
      Within value path (.object fields) → fields[position]? = some field →
      Within value (path ++ [.field position]) field.2

end YamlTypes.Value
