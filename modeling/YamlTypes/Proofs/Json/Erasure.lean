import YamlTypes.Proofs.Number.Literals
import YamlTypes.Proofs.Types.Inferred

/-!
What a module keeps of its data.

JSON has no form for everything, so the data is erased to what JSON can hold. The
erasure relates a value to its document one thing at a time: an absent item is
null, an absent field is missing, and of the fields of one key the last counts in
the place of the first. Every value but `undefined` has one erasure, and the
literal of a module is read back as it.
-/

set_option autoImplicit false

namespace YamlTypes

namespace Double

variable {x : Double}

theorem isFinite_of_toInt?_eq_some {n : Int} (whole : x.toInt? = some n) : x.isFinite = true := by
  cases x with
  | finite negative place => rfl
  | infinite negative => cases whole
  | notANumber => cases whole

theorem toJson_of_natAbs_le {n : Int} (whole : x.toInt? = some n)
    (small : n.natAbs ≤ maxSafeInteger) : x.toJson = .number (toString n) := by
  simp only [toJson, if_pos (isFinite_of_toInt?_eq_some whole), whole, if_pos small]

theorem toJson_of_forall_lt (finite : x.isFinite = true)
    (large : ∀ n, x.toInt? = some n → maxSafeInteger < n.natAbs) :
    x.toJson = .number (Json.numberStyle.text x) := by
  rw [toJson, if_pos finite]
  split
  next n whole => exact if_neg (Nat.not_le_of_lt (large n whole))
  next => rfl

theorem toJson_of_isFinite_eq_false (infinite : x.isFinite = false) : x.toJson = .null :=
  if_neg (ne_true_of_eq_false infinite)

end Double

namespace Value

def kept (fields : List (String × Value)) : List (String × Value) :=
  fields.filter fun field => !field.2.isUndefined

/-- The document that is left of a value. -/
inductive Erases : Value → Json → Prop
  | null : Erases .null .null
  | bool (b : Bool) : Erases (.bool b) (.bool b)
  | integer {x : Double} {n : Int} : x.toInt? = some n → n.natAbs ≤ Double.maxSafeInteger →
      Erases (.number x) (.number (toString n))
  | decimal {x : Double} : x.isFinite = true →
      (∀ n, x.toInt? = some n → Double.maxSafeInteger < n.natAbs) →
      Erases (.number x) (.number (Json.numberStyle.text x))
  | notFinite {x : Double} : x.isFinite = false → Erases (.number x) .null
  | string (s : String) : Erases (.string s) (.string s)
  | tagged (tag : String) : Erases (.tagged tag) .null
  | array {items : List Value} {erased : List Json} :
      erased.length = items.length →
      (∀ (position : ℕ) (item : Value) (json : Json), items[position]? = some item →
        erased[position]? = some json → item = .undefined → json = .null) →
      (∀ (position : ℕ) (item : Value) (json : Json), items[position]? = some item →
        erased[position]? = some json → item ≠ .undefined → Erases item json) →
      Erases (.array items) (.array erased)
  | object {fields : List (String × Value)} {erased : List (String × Json)} :
      erased.map Prod.fst = ((kept fields).map Prod.fst).eraseDups →
      (∀ field ∈ erased, ∀ value, Fields.Last field.1 value (kept fields) →
        Erases value field.2) →
      Erases (.object fields) (.object erased)

theorem isUndefined_iff {value : Value} : value.isUndefined = true ↔ value = .undefined := by
  cases value <;> simp [isUndefined]

theorem exists_toJson? {value : Value} (present : value ≠ .undefined) :
    ∃ json, value.toJson? = some json := by
  cases value <;> simp_all [toJson?]

theorem jsonFields_forall₂ (fields : List (String × Value)) :
    List.Forall₂ (Fields.Corresponds fun value json => value.toJson? = some json) (kept fields)
      (jsonFields fields) := by
  induction fields with
  | nil => exact .nil
  | cons field rest inductionHypothesis =>
      obtain ⟨key, value⟩ := field
      by_cases absent : value = .undefined
      · subst absent
        exact inductionHypothesis
      · rcases exists_toJson? absent with ⟨json, hasJson⟩
        have present : ¬value.isUndefined = true := fun isUndefined =>
          absent (isUndefined_iff.mp isUndefined)
        have first : kept ((key, value) :: rest) = (key, value) :: kept rest :=
          List.filter_cons_of_pos (by simpa using present)
        rw [first, jsonFields, hasJson]
        exact .cons ⟨rfl, hasJson⟩ inductionHypothesis

theorem erases_number (x : Double) : Erases (.number x) x.toJson := by
  by_cases finite : x.isFinite = true
  · by_cases small : ∃ n, x.toInt? = some n ∧ n.natAbs ≤ Double.maxSafeInteger
    · rcases small with ⟨n, whole, small⟩
      rw [Double.toJson_of_natAbs_le whole small]
      exact .integer whole small
    · have large : ∀ n, x.toInt? = some n → Double.maxSafeInteger < n.natAbs :=
        fun n whole => Nat.lt_of_not_le fun le => small ⟨n, whole, le⟩
      rw [Double.toJson_of_forall_lt finite large]
      exact .decimal finite large
  · rw [Bool.not_eq_true] at finite
    rw [Double.toJson_of_isFinite_eq_false finite]
    exact .notFinite finite

theorem Erases.eq_toJson {x : Double} {json : Json} (erases : Erases (.number x) json) :
    json = x.toJson := by
  cases erases with
  | integer whole small => exact (Double.toJson_of_natAbs_le whole small).symm
  | decimal finite large => exact (Double.toJson_of_forall_lt finite large).symm
  | notFinite infinite => exact (Double.toJson_of_isFinite_eq_false infinite).symm

theorem erases_object {fields : List (String × Value)}
    (each : ∀ field ∈ fields, ∀ json, field.2.toJson? = some json → Erases field.2 json) :
    Erases (.object fields) (.object (Fields.ofPairs (jsonFields fields))) := by
  have written := jsonFields_forall₂ fields
  apply Erases.object
  · rw [Fields.keys_ofPairs, Fields.keys_eq_of_forall₂ written]
  · intro field member value last
    have found := Fields.get?_of_mem (Fields.nodup_keys_ofPairs _) member
    rcases Fields.exists_get?_of_forall₂ (Fields.forall₂_ofPairs written) found with
      ⟨own, isOwn, hasJson⟩
    obtain rfl := last.unique (Fields.last_of_get?_ofPairs isOwn)
    exact each (field.1, value) (List.mem_filter.mp last.mem).1 field.2 hasJson

theorem exists_last_of_mem_erased {fields : List (String × Value)} {erased : List (String × Json)}
    (keys : erased.map Prod.fst = ((kept fields).map Prod.fst).eraseDups) {field : String × Json}
    (member : field ∈ erased) : ∃ value, Fields.Last field.1 value (kept fields) := by
  apply Fields.exists_last_of_mem
  rw [← List.mem_eraseDups, ← keys]
  exact List.mem_map_of_mem member

/-- Every value but `undefined` has an erasure. -/
theorem erases_of_toJson? {value : Value} {json : Json} (hasJson : value.toJson? = some json) :
    Erases value json := by
  induction value using Value.induct generalizing json with
  | null =>
      obtain rfl := Option.some.inj hasJson
      exact .null
  | undefined => cases hasJson
  | bool b =>
      obtain rfl := Option.some.inj hasJson
      exact .bool b
  | number x =>
      obtain rfl := Option.some.inj hasJson
      exact erases_number x
  | string s =>
      obtain rfl := Option.some.inj hasJson
      exact .string s
  | array items each =>
      obtain rfl := Option.some.inj hasJson
      rw [jsonItems_eq_map]
      refine .array (List.length_map _) ?_ ?_
      · rintro position item json isItem isJson rfl
        rw [List.getElem?_map, isItem] at isJson
        exact (Option.some.inj isJson).symm
      · intro position item json isItem isJson present
        rcases exists_toJson? present with ⟨own, hasOwn⟩
        rw [List.getElem?_map, isItem, Option.map_some, hasOwn] at isJson
        obtain rfl := Option.some.inj isJson
        exact each item (List.mem_of_getElem? isItem) hasOwn
  | object fields each =>
      obtain rfl := Option.some.inj hasJson
      exact erases_object fun field member json => each field member
  | tagged tag =>
      obtain rfl := Option.some.inj hasJson
      exact .tagged tag

theorem Erases.unique {value : Value} {first second : Json} (erases : Erases value first)
    (also : Erases value second) : first = second := by
  induction erases generalizing second with
  | null => cases also; rfl
  | bool b => cases also; rfl
  | integer whole small =>
      exact (Erases.integer whole small).eq_toJson.trans also.eq_toJson.symm
  | decimal finite large =>
      exact (Erases.decimal finite large).eq_toJson.trans also.eq_toJson.symm
  | notFinite infinite => exact (Erases.notFinite infinite).eq_toJson.trans also.eq_toJson.symm
  | string s => cases also; rfl
  | tagged tag => cases also; rfl
  | @array items erased length absent _ each =>
      cases also with
      | @array _ others otherLength otherAbsent others =>
          refine congrArg Json.array (List.ext_getElem (length.trans otherLength.symm) ?_)
          intro position isFirst isSecond
          have isItem : items[position]? = some items[position] :=
            List.getElem?_eq_getElem (length ▸ isFirst)
          by_cases undefined : items[position] = .undefined
          · rw [absent _ _ _ isItem (List.getElem?_eq_getElem isFirst) undefined,
              otherAbsent _ _ _ isItem (List.getElem?_eq_getElem isSecond) undefined]
          · exact each _ _ _ isItem (List.getElem?_eq_getElem isFirst) undefined
              (others _ _ _ isItem (List.getElem?_eq_getElem isSecond) undefined)
  | @object fields erased keys _ each =>
      cases also with
      | object otherKeys others =>
          refine congrArg Json.object (Fields.eq_of_keys (keys.trans otherKeys.symm) ?_)
          intro key json other isFirst isSecond
          rcases exists_last_of_mem_erased keys isFirst with ⟨value, last⟩
          exact each _ isFirst value last (others _ isSecond value last)

theorem Erases.wellFormed {value : Value} {json : Json} (erases : Erases value json) :
    json.WellFormed := by
  induction erases with
  | null => exact .null
  | bool b => exact .bool b
  | integer whole small =>
      rw [(Erases.integer whole small).eq_toJson]
      exact Number.wellFormed_toJson _
  | decimal finite large =>
      rw [(Erases.decimal finite large).eq_toJson]
      exact Number.wellFormed_toJson _
  | notFinite _ => exact .null
  | string s => exact .string s
  | tagged _ => exact .null
  | @array items erased length absent _ each =>
      apply Json.WellFormed.array
      intro json member
      rcases List.mem_iff_getElem.mp member with ⟨position, inErased, rfl⟩
      have isItem : items[position]? = some items[position] :=
        List.getElem?_eq_getElem (length ▸ inErased)
      have isJson := List.getElem?_eq_getElem inErased
      by_cases undefined : items[position] = .undefined
      · rw [absent _ _ _ isItem isJson undefined]
        exact .null
      · exact each _ _ _ isItem isJson undefined
  | object keys _ each =>
      apply Json.WellFormed.object
      intro field member
      rcases exists_last_of_mem_erased keys member with ⟨value, last⟩
      exact each field member value last

/-- A module declares its data by one literal and exports it. The literal of no document is
`undefined`; that of any other value is read back, as a whole, as what the value erases to and as
nothing else, whatever characters its strings and keys have. -/
theorem moduleBody_faithful (value : Value) :
    value.moduleBody = "const data = " ++ value.literal ++ ";\nexport default data;\n" ∧
      (value = .undefined → value.literal = "undefined") ∧
      (value ≠ .undefined → ∃ json, Json.read? value.literal = some json ∧
        ∀ other, Erases value other ↔ other = json) := by
  refine ⟨rfl, ?_, ?_⟩
  · rintro rfl
    rfl
  · intro present
    rcases exists_toJson? present with ⟨json, hasJson⟩
    have erases := erases_of_toJson? hasJson
    have text : value.literal = json.pretty "" := by rw [literal, hasJson]
    refine ⟨json, ?_, fun other => ⟨fun also => also.unique erases, ?_⟩⟩
    · rw [text]
      exact erases.wellFormed.read?_pretty
    · rintro rfl
      exact erases

/-- Keys and strings that look like the end of a literal, and things that JSON cannot hold. -/
def quoting : Value :=
  .object [("\"\x7d;", .string "first"), ("none", .undefined), ("\\", .string "\"\n;"),
    ("\"\x7d;", .array [.undefined, .number .notANumber, .tagged "t", .bool true])]

/-- The two fields of one key are one, and the field with nothing in it is gone. -/
def quotingErased : Json :=
  .object [("\"\x7d;", .array [.null, .null, .null, .bool true]), ("\\", .string "\"\n;")]

theorem moduleBody_faithful_quoting :
    Value.undefined.literal = "undefined" ∧ Json.read? quoting.literal = some quotingErased ∧
      Erases quoting quotingErased := by
  rcases (moduleBody_faithful quoting).2.2 nofun with ⟨json, isRead, only⟩
  have known : Json.read? quoting.literal = some quotingErased := rfl
  exact ⟨(moduleBody_faithful .undefined).2.1 rfl, known,
    (only _).mpr (Option.some.inj (known.symm.trans isRead))⟩

end Value

end YamlTypes
