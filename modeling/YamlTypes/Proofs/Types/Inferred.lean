import YamlTypes.Declaration
import YamlTypes.ModuleBody
import YamlTypes.Proofs.Types.Inhabits
import YamlTypes.Proofs.Types.Variants
import YamlTypes.Proofs.Yaml.Decoded

/-!
The data that a module exports inhabits the type that its declaration gives.

Inference keeps one type of each text among those of an array's elements. No
inhabitant is lost by that, because types of the same text have the same ones.
Nor does the way to JSON lose a field or repeat a key: documents are data in
which nothing is absent and no object holds a key twice.
-/

set_option autoImplicit false

namespace YamlTypes

namespace TypeExpr

variable {indent : String} {types : List TypeExpr}

/-- Items inhabit the type of their array if each of them inhabits an element's type. -/
theorem inhabits_ofElements {items : List Json} (oneLine : ∀ type ∈ types, type.OneLine)
    (each : ∀ item ∈ items, ∃ type ∈ types, Inhabits (some item) type) :
    Inhabits (some (.array items)) (ofElements indent types) := by
  have keptEach : ∀ item ∈ items, ∃ type ∈ distinct indent [] types, Inhabits (some item) type := by
    intro item member
    rcases each item member with ⟨type, isType, inhabits⟩
    rcases exists_mem_distinct isType List.not_mem_nil with ⟨kept, isKept, sameText⟩
    exact ⟨kept, isKept, inhabits_of_render_eq (oneLine type isType)
      (oneLine kept (mem_of_mem_distinct isKept)) sameText.symm inhabits⟩
  simp only [ofElements]
  split
  · exact .emptyArray items
  · rename_i type isOnly
    simp only [isOnly, List.mem_singleton, exists_eq_left] at keptEach
    exact .array keptEach
  · exact .array fun item member => inhabits_union.mpr (keptEach item member)

end TypeExpr

/-! ## Exported data -/

theorem Double.toJson_of_isFinite {x : Double} (finite : x.isFinite) :
    ∃ literal, x.toJson = .number literal := by
  simp only [toJson, if_pos finite]
  split
  · split <;> exact ⟨_, rfl⟩
  · exact ⟨_, rfl⟩

namespace Value

open TypeExpr (infer inferFields Inhabits)

theorem jsonItems_eq_map (items : List Value) :
    jsonItems items = items.map fun item => item.toJson?.getD .null := by
  induction items with
  | nil => rfl
  | cons item rest inductionHypothesis => simp [jsonItems, inductionHypothesis]

theorem jsonFields_inhabit {indent : String} {fields : List (String × Value)}
    (each : ∀ field ∈ fields, ∃ json, field.2.toJson? = some json ∧
      Inhabits (some json) (infer indent field.2)) :
    (jsonFields fields).map Prod.fst = fields.map Prod.fst ∧
      ∀ pair ∈ (jsonFields fields).zip (inferFields indent fields),
        Inhabits (some pair.1.2) pair.2.2 := by
  induction fields with
  | nil => simp [jsonFields]
  | cons field rest inductionHypothesis =>
    rcases each field List.mem_cons_self with ⟨json, hasJson, inhabits⟩
    have ⟨sameKeys, eachOfRest⟩ := inductionHypothesis fun field member =>
      each field (List.mem_cons_of_mem _ member)
    simp only [jsonFields, hasJson, inferFields, List.map_cons, sameKeys, List.zip_cons_cons,
      List.forall_mem_cons]
    exact ⟨trivial, inhabits, eachOfRest⟩

theorem Decoded.exists_json {value : Value} (decoded : value.Decoded)
    (finite : ∀ x ∈ value.numbers, x.isFinite) (oneLine : ∀ key ∈ value.keys, '\n' ∉ key.toList)
    (indent : String) :
    ∃ json, value.toJson? = some json ∧ Inhabits (some json) (infer indent value) := by
  -- The fields of an object are inferred at a deeper indent, so the indent stays general.
  induction decoded generalizing indent with
  | null =>
    simp only [toJson?, infer]
    exact ⟨_, rfl, .null⟩
  | bool b =>
    simp only [toJson?, infer]
    exact ⟨_, rfl, .boolean b⟩
  | string s =>
    simp only [toJson?, infer]
    exact ⟨_, rfl, .string s⟩
  | tagged tag =>
    simp only [toJson?, infer]
    exact ⟨_, rfl, .any _⟩
  | number x =>
    rcases Double.toJson_of_isFinite (finite x (by simp [numbers])) with ⟨literal, isNumber⟩
    simp only [toJson?, isNumber, infer]
    exact ⟨_, rfl, .number literal⟩
  | @array items _ inductionHypothesis =>
    rw [forall_mem_numbers_array] at finite
    rw [forall_mem_keys_array] at oneLine
    have itemInhabits (item : Value) (member : item ∈ items) :=
      inductionHypothesis item member (finite item member) (oneLine item member) indent
    simp only [toJson?, infer, TypeExpr.inferItems_eq_map, jsonItems_eq_map]
    refine ⟨_, rfl, TypeExpr.inhabits_ofElements ?_ ?_⟩ <;> simp only [List.forall_mem_map]
    · exact fun item member => TypeExpr.oneLine_infer (oneLine item member) indent
    · intro item member
      rcases itemInhabits item member with ⟨json, hasJson, inhabits⟩
      refine ⟨_, List.mem_map_of_mem member, ?_⟩
      simpa only [hasJson, Option.getD_some] using inhabits
  | @object fields distinct _ inductionHypothesis =>
    rw [forall_mem_numbers_object] at finite
    rw [forall_mem_keys_object] at oneLine
    obtain ⟨sameKeys, each⟩ := jsonFields_inhabit fun field member =>
      inductionHypothesis field member (finite field member) (oneLine field member).2
        (indent ++ "  ")
    simp only [toJson?, infer]
    rw [Fields.ofPairs_of_nodup (by rwa [sameKeys])]
    exact ⟨_, rfl, .object (by rw [sameKeys, TypeExpr.keys_inferFields]) each⟩

end Value

def Exports (text : String) (data : Option Json) : Prop :=
  text = "const data = " ++ data.elim "undefined" (Json.pretty "") ++ ";\nexport default data;\n"

namespace Declaration

/-- A declaration's text gives the data of its module a type, with all its keys on one line. -/
def Gives (text : String) (type : TypeExpr) : Prop :=
  type.OneLine ∧ text = "declare const data: " ++ type.render "" ++ ";\nexport default data;\n"

theorem gives_infer {value : Value} (oneLine : ∀ key ∈ value.keys, '\n' ∉ key.toList) :
    Gives (contents value) (TypeExpr.infer "" value) :=
  ⟨TypeExpr.oneLine_infer oneLine "", rfl⟩

theorem render_eq_of_gives {text : String} {type other : TypeExpr} (gives : Gives text type)
    (givesOther : Gives text other) : type.render "" = other.render "" := by
  have same := gives.2.symm.trans givesOther.2
  simpa only [String.append_left_inj, String.append_right_inj] using same

/-- The data that a document's module exports is of the type that its declaration gives, in every
way of reading the declaration as a type. -/
theorem exported_inhabits_declared {text : List Char} {value : Value}
    (decoded : Yaml.decode? text = some value) (finite : ∀ x ∈ value.numbers, x.isFinite)
    (oneLine : ∀ key ∈ value.keys, '\n' ∉ key.toList) :
    Exports value.moduleBody value.toJson? ∧ Gives (contents value) (TypeExpr.infer "" value) ∧
      ∀ type, Gives (contents value) type → TypeExpr.Inhabits value.toJson? type := by
  have inhabits : TypeExpr.Inhabits value.toJson? (TypeExpr.infer "" value) := by
    rcases Yaml.decoded_of_decode? decoded with rfl | decoded
    · simp only [Value.toJson?, TypeExpr.infer]
      exact .undefined
    · rcases decoded.exists_json finite oneLine "" with ⟨json, hasJson, inhabits⟩
      rwa [hasJson]
  have gives := gives_infer oneLine
  refine ⟨?_, gives, fun type givesType => ?_⟩
  · simp only [Exports, Value.moduleBody, Value.literal]
    cases value.toJson? <;> rfl
  · exact TypeExpr.inhabits_of_render_eq gives.1 givesType.1 (render_eq_of_gives gives givesType)
      inhabits

/-- A sequence of three items, the first two of which have different types of one text. -/
def collapsedText : List Char := "[[], [!t x], {a: [1, b]}]".toList

def collapsedValue : Value := (Yaml.decode? collapsedText).getD .undefined

theorem decode?_collapsedText : Yaml.decode? collapsedText = some collapsedValue := by
  have accepted : (Yaml.decode? collapsedText).isSome := by decide +kernel
  rcases Option.isSome_iff_exists.mp accepted with ⟨value, isValue⟩
  simp only [collapsedValue, isValue, Option.getD_some]

theorem exported_inhabits_declared_collapsed :
    Yaml.decode? collapsedText = some collapsedValue ∧
      (∀ x ∈ collapsedValue.numbers, x.isFinite) ∧
      (∀ key ∈ collapsedValue.keys, '\n' ∉ key.toList) ∧
      contents collapsedValue =
        "declare const data: (any[] | \x7b\n  a: (number | string)[];\n\x7d)[];\n" ++
          "export default data;\n" ∧
      ∀ type, Gives (contents collapsedValue) type →
        TypeExpr.Inhabits collapsedValue.toJson? type := by
  have finite : ∀ x ∈ collapsedValue.numbers, x.isFinite := by decide +kernel
  have oneLine : ∀ key ∈ collapsedValue.keys, '\n' ∉ key.toList := by decide +kernel
  exact ⟨decode?_collapsedText, finite, oneLine, by decide +kernel,
    (exported_inhabits_declared decode?_collapsedText finite oneLine).2.2⟩

end Declaration

end YamlTypes
