import YamlTypes.Json
import YamlTypes.Proofs.Types.Unambiguous

/-!
The data that a type describes.

Types of the same text describe the same data, because a text stands for more
than one type only where an array has no known elements.
-/

set_option autoImplicit false

namespace YamlTypes

namespace TypeExpr

/-- Which exported data a type describes; `none` is JavaScript's `undefined`. -/
inductive Inhabits : Option Json → TypeExpr → Prop
  | string (s : String) : Inhabits (some (.string s)) (.primitive .string)
  | number (literal : String) : Inhabits (some (.number literal)) (.primitive .number)
  | boolean (b : Bool) : Inhabits (some (.bool b)) (.primitive .boolean)
  | null : Inhabits (some .null) .null
  | undefined : Inhabits none .undefined
  | any (data : Option Json) : Inhabits data .any
  | emptyArray (items : List Json) : Inhabits (some (.array items)) .emptyArray
  | array {items : List Json} {element : TypeExpr}
      (each : ∀ item ∈ items, Inhabits (some item) element) :
      Inhabits (some (.array items)) (.array element)
  | union {data : Option Json} {variants : List TypeExpr} {variant : TypeExpr}
      (member : variant ∈ variants) (inhabits : Inhabits data variant) :
      Inhabits data (.union variants)
  | object {fields : List (String × Json)} {types : List (String × TypeExpr)}
      (sameKeys : fields.map Prod.fst = types.map Prod.fst)
      (each : ∀ pair ∈ fields.zip types, Inhabits (some pair.1.2) pair.2.2) :
      Inhabits (some (.object fields)) (.object types)

theorem inhabits_any (data : Option Json) : Inhabits data .any ↔ True :=
  iff_true_intro (.any data)

theorem inhabits_emptyArray {data : Option Json} :
    Inhabits data .emptyArray ↔ ∃ items, data = some (.array items) := by
  constructor
  · rintro ⟨⟩
    exact ⟨_, rfl⟩
  · rintro ⟨items, rfl⟩
    exact .emptyArray items

theorem inhabits_array {data : Option Json} {element : TypeExpr} :
    Inhabits data (.array element) ↔
      ∃ items, data = some (.array items) ∧ ∀ item ∈ items, Inhabits (some item) element := by
  constructor
  · intro inhabits
    cases inhabits with
    | array each => exact ⟨_, rfl, each⟩
  · rintro ⟨items, rfl, each⟩
    exact .array each

theorem inhabits_union {data : Option Json} {variants : List TypeExpr} :
    Inhabits data (.union variants) ↔ ∃ variant ∈ variants, Inhabits data variant := by
  constructor
  · intro inhabits
    cases inhabits with
    | union member inhabits => exact ⟨_, member, inhabits⟩
  · rintro ⟨variant, member, inhabits⟩
    exact .union member inhabits

theorem inhabits_object {data : Option Json} {types : List (String × TypeExpr)} :
    Inhabits data (.object types) ↔
      ∃ fields, data = some (.object fields) ∧ fields.map Prod.fst = types.map Prod.fst ∧
        ∀ pair ∈ fields.zip types, Inhabits (some pair.1.2) pair.2.2 := by
  constructor
  · intro inhabits
    cases inhabits with
    | object sameKeys each => exact ⟨_, rfl, sameKeys, each⟩
  · rintro ⟨fields, rfl, sameKeys, each⟩
    exact .object sameKeys each

/-- Arrays without known elements and arrays of anything have the same inhabitants. -/
theorem inhabits_canonical {data : Option Json} {type : TypeExpr} :
    Inhabits data type.canonical ↔ Inhabits data type := by
  induction type using induct generalizing data with
  | primitive kind | null | undefined | any => simp only [canonical]
  | emptyArray => simp [canonical, inhabits_array, inhabits_emptyArray, inhabits_any]
  | array element inductionHypothesis =>
    simp only [canonical, inhabits_array, inductionHypothesis]
  | union variants each =>
    simp only [canonical, canonicalEach_eq_map, inhabits_union, List.mem_map,
      exists_exists_and_eq_and]
    exact exists_congr fun variant => and_congr_right fun member => each variant member
  | object types each =>
    have sameEach (fields : List (String × Json)) :
        (∀ pair ∈ fields.zip (canonicalFields types), Inhabits (some pair.1.2) pair.2.2) ↔
          ∀ pair ∈ fields.zip types, Inhabits (some pair.1.2) pair.2.2 := by
      simp only [canonicalFields_eq_map, List.zip_map_right, List.forall_mem_map]
      exact forall₂_congr fun pair member => each _ (List.of_mem_zip member).2
    have sameKeys : (canonicalFields types).map Prod.fst = types.map Prod.fst := by
      simp only [canonicalFields_eq_map, List.map_map, Function.comp_def]
    simp only [canonical, inhabits_object, sameEach, sameKeys]

/-- The text of a type, where no key holds a newline, tells its inhabitants. -/
theorem inhabits_of_render_eq {indent : String} {data : Option Json} {type other : TypeExpr}
    (oneLine : type.OneLine) (otherOneLine : other.OneLine)
    (same : type.render indent = other.render indent) (inhabits : Inhabits data type) :
    Inhabits data other := by
  rw [← inhabits_canonical] at inhabits ⊢
  rwa [← canonical_eq_of_render_eq oneLine otherOneLine same]

end TypeExpr

end YamlTypes
