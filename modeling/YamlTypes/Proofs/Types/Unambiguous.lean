import Mathlib.Data.List.Induction
import YamlTypes.TypeExpr

/-!
The text of a type tells the type.

Read from its end, the text of a type is a prefix code: its last character tells
the outermost constructor, and the text of a part ends where the part begins. A
key ends at the beginning of its line, so that it may hold anything but a
newline, colons and braces included. One text stands for two types: an array
without known elements is written as an array of anything. `canonical` reads it
as that.
-/

set_option autoImplicit false

namespace YamlTypes.TypeExpr

@[elab_as_elim]
theorem induct {motive : TypeExpr → Prop}
    (primitive : ∀ kind, motive (.primitive kind)) (null : motive .null)
    (undefined : motive .undefined) (any : motive .any)
    (object : ∀ fields : List (String × TypeExpr),
      (∀ field ∈ fields, motive field.2) → motive (.object fields))
    (array : ∀ element, motive element → motive (.array element))
    (union : ∀ variants : List TypeExpr,
      (∀ variant ∈ variants, motive variant) → motive (.union variants))
    (emptyArray : motive .emptyArray) (type : TypeExpr) : motive type := by
  refine @TypeExpr.rec motive (fun fields => ∀ field ∈ fields, motive field.2)
    (fun variants => ∀ variant ∈ variants, motive variant) (fun field => motive field.2)
    primitive null undefined any object array union emptyArray ?_ ?_ ?_ ?_ ?_ type
  all_goals simp_all

/-! ## Keys and canonical types -/

mutual

@[simp]
def keys : TypeExpr → List String
  | .object fields => keysOfFields fields
  | .array element => element.keys
  | .union variants => keysOfEach variants
  | .primitive _ | .null | .undefined | .any | .emptyArray => []

@[simp]
def keysOfFields : List (String × TypeExpr) → List String
  | [] => []
  | (key, type) :: rest => key :: (type.keys ++ keysOfFields rest)

@[simp]
def keysOfEach : List TypeExpr → List String
  | [] => []
  | type :: rest => type.keys ++ keysOfEach rest

end

theorem keysOfFields_eq (fields : List (String × TypeExpr)) :
    keysOfFields fields = fields.flatMap fun field => field.1 :: field.2.keys := by
  induction fields with
  | nil => rfl
  | cons field rest inductionHypothesis => simp [inductionHypothesis]

theorem keysOfEach_eq (types : List TypeExpr) : keysOfEach types = types.flatMap keys := by
  induction types with
  | nil => rfl
  | cons type rest inductionHypothesis => simp [inductionHypothesis]

/-- No key in a type holds a newline. -/
def OneLine (type : TypeExpr) : Prop := ∀ key ∈ type.keys, '\n' ∉ key.toList

theorem oneLine_object {fields : List (String × TypeExpr)} :
    (object fields).OneLine ↔
      ∀ field ∈ fields, '\n' ∉ field.1.toList ∧ field.2.OneLine := by
  simp only [OneLine, keys, keysOfFields_eq, List.mem_flatMap, List.mem_cons]
  constructor
  · intro oneLine field member
    exact ⟨oneLine _ ⟨field, member, .inl rfl⟩,
      fun key inType => oneLine key ⟨field, member, .inr inType⟩⟩
  · rintro oneLine key ⟨field, member, rfl | inType⟩
    · exact (oneLine field member).1
    · exact (oneLine field member).2 key inType

theorem oneLine_array {element : TypeExpr} : (array element).OneLine ↔ element.OneLine := by
  simp only [OneLine, keys]

theorem oneLine_union {variants : List TypeExpr} :
    (union variants).OneLine ↔ ∀ variant ∈ variants, variant.OneLine := by
  simp only [OneLine, keys, keysOfEach_eq, List.mem_flatMap]
  constructor
  · exact fun oneLine variant member key inVariant => oneLine key ⟨variant, member, inVariant⟩
  · rintro oneLine key ⟨variant, member, inVariant⟩
    exact oneLine variant member key inVariant

mutual

/-- The type in which arrays without known elements are arrays of anything. -/
@[simp]
def canonical : TypeExpr → TypeExpr
  | .object fields => .object (canonicalFields fields)
  | .array element => .array element.canonical
  | .union variants => .union (canonicalEach variants)
  | .emptyArray => .array .any
  | .primitive kind => .primitive kind
  | .null => .null
  | .undefined => .undefined
  | .any => .any

@[simp]
def canonicalFields : List (String × TypeExpr) → List (String × TypeExpr)
  | [] => []
  | (key, type) :: rest => (key, type.canonical) :: canonicalFields rest

@[simp]
def canonicalEach : List TypeExpr → List TypeExpr
  | [] => []
  | type :: rest => type.canonical :: canonicalEach rest

end

theorem canonicalFields_eq_map (fields : List (String × TypeExpr)) :
    canonicalFields fields = fields.map fun field => (field.1, field.2.canonical) := by
  induction fields with
  | nil => rfl
  | cons field rest inductionHypothesis => simp [inductionHypothesis]

theorem canonicalEach_eq_map (types : List TypeExpr) :
    canonicalEach types = types.map canonical := by
  induction types with
  | nil => rfl
  | cons type rest inductionHypothesis => simp [inductionHypothesis]

/-! ## Texts from their end -/

section Backwards

variable (indent : String)

attribute [local simp] render renderFields renderEach

def backwards (type : TypeExpr) : List Char := (type.render indent).toList.reverse

def fieldsBackwards (fields : List (String × TypeExpr)) : List Char :=
  (renderFields indent fields).toList.reverse

/-- The characters of a union's text before a variant that follows others, the last one first. -/
def variantsBackwards (variants : List TypeExpr) : List Char :=
  (variants.flatMap fun variant => (variant.render indent ++ " | ").toList).reverse ++ ['(']

@[simp]
theorem backwards_primitive (kind : Primitive) :
    (primitive kind).backwards indent = kind.keyword.toList.reverse := by
  simp [backwards]

@[simp]
theorem backwards_null : null.backwards indent = ['l', 'l', 'u', 'n'] := by
  simp [backwards]

@[simp]
theorem backwards_undefined :
    undefined.backwards indent = ['d', 'e', 'n', 'i', 'f', 'e', 'd', 'n', 'u'] := by
  simp [backwards]

@[simp]
theorem backwards_any : any.backwards indent = ['y', 'n', 'a'] := by
  simp [backwards]

@[simp]
theorem backwards_emptyArray : emptyArray.backwards indent = [']', '[', 'y', 'n', 'a'] := by
  simp [backwards]

@[simp]
theorem backwards_array (element : TypeExpr) :
    (array element).backwards indent = ']' :: '[' :: element.backwards indent := by
  simp [backwards]

@[simp]
theorem backwards_object (fields : List (String × TypeExpr)) :
    (object fields).backwards indent =
      '\x7d' :: (indent.toList.reverse ++
        (fieldsBackwards (indent ++ "  ") fields ++ ['\n', '\x7b'])) := by
  simp [backwards, fieldsBackwards]

theorem renderFields_append (fields others : List (String × TypeExpr)) :
    renderFields indent (fields ++ others) =
      renderFields indent fields ++ renderFields indent others := by
  induction fields with
  | nil => simp
  | cons field rest inductionHypothesis =>
    simp [inductionHypothesis, String.append_assoc]

@[simp]
theorem fieldsBackwards_nil : fieldsBackwards indent [] = [] := by
  simp [fieldsBackwards]

@[simp]
theorem fieldsBackwards_concat (fields : List (String × TypeExpr)) (field : String × TypeExpr) :
    fieldsBackwards indent (fields ++ [field]) =
      '\n' :: ';' :: (field.2.backwards indent ++ ' ' :: ':' ::
        (field.1.toList.reverse ++ (indent.toList.reverse ++ fieldsBackwards indent fields))) := by
  simp [fieldsBackwards, backwards, renderFields_append]

theorem alternatives_concat (texts : List String) (text : String) :
    (alternatives (texts ++ [text])).toList =
      (texts.flatMap fun earlier => (earlier ++ " | ").toList) ++ text.toList := by
  induction texts with
  | nil => simp [alternatives]
  | cons first rest inductionHypothesis =>
    rcases rest with _ | ⟨second, rest⟩
    · simp [alternatives]
    · simpa [alternatives] using inductionHypothesis

@[simp]
theorem variantsBackwards_nil : variantsBackwards indent [] = ['('] := rfl

@[simp]
theorem variantsBackwards_concat (variants : List TypeExpr) (variant : TypeExpr) :
    variantsBackwards indent (variants ++ [variant]) =
      ' ' :: '|' :: ' ' :: (variant.backwards indent ++ variantsBackwards indent variants) := by
  simp [variantsBackwards, backwards]

@[simp]
theorem backwards_union (variants : List TypeExpr) :
    (union variants).backwards indent =
      ')' :: ((alternatives (renderEach indent variants)).toList.reverse ++ ['(']) := by
  simp [backwards]

theorem backwards_union_nil : (union []).backwards indent = [')', '('] := by
  simp [alternatives]

theorem backwards_union_concat (variants : List TypeExpr) (variant : TypeExpr) :
    (union (variants ++ [variant])).backwards indent =
      ')' :: (variant.backwards indent ++ variantsBackwards indent variants) := by
  simp [backwards, variantsBackwards, renderEach_eq_map, alternatives_concat, List.flatMap_map]

end Backwards

/-! ## A prefix code -/

theorem takeWhile_key {key : List Char} (oneLine : '\n' ∉ key) (rest : List Char) :
    (key ++ rest).takeWhile (· ≠ '\n') = key ++ rest.takeWhile (· ≠ '\n') :=
  List.takeWhile_append_of_pos fun c member => by
    simpa using ne_of_mem_of_not_mem member oneLine

theorem takeWhile_line (indent rest : List Char) :
    (indent ++ '\n' :: rest).takeWhile (· ≠ '\n') = indent.takeWhile (· ≠ '\n') := by
  induction indent with
  | nil => simp
  | cons c indent inductionHypothesis =>
    simp only [List.cons_append, List.takeWhile_cons, inductionHypothesis]

theorem key_unique {key other indent rest remainder : List Char} (oneLine : '\n' ∉ key)
    (otherOneLine : '\n' ∉ other)
    (same : key ++ (indent ++ '\n' :: rest) = other ++ (indent ++ '\n' :: remainder)) :
    key = other ∧ rest = remainder := by
  have lines := congrArg (List.takeWhile (· ≠ '\n')) same
  rw [takeWhile_key oneLine, takeWhile_key otherOneLine, takeWhile_line, takeWhile_line] at lines
  have sameKey : key = other := List.append_cancel_right lines
  refine ⟨sameKey, ?_⟩
  simpa [sameKey] using same

/-- Only the type itself has a text that ends where its own text ends, up to `canonical`. -/
def Told (type : TypeExpr) : Prop :=
  ∀ (indent : String) (other : TypeExpr) (rest remainder : List Char),
    type.OneLine → other.OneLine →
    type.backwards indent ++ rest = other.backwards indent ++ remainder →
    type.canonical = other.canonical ∧ rest = remainder

/-- Before the lines of some fields there is a newline, and so there is before each of them. -/
theorem fieldsBackwards_newline (indent : String) (fields : List (String × TypeExpr))
    (rest : List Char) :
    ∃ before, fieldsBackwards indent fields ++ '\n' :: rest = '\n' :: before := by
  rcases List.eq_nil_or_concat fields with rfl | ⟨fields, field, rfl⟩ <;> simp

theorem fields_unique {indent : String} {fields others : List (String × TypeExpr)}
    {rest remainder : List Char} (each : ∀ field ∈ fields, field.2.Told)
    (oneLine : (object fields).OneLine) (otherOneLine : (object others).OneLine)
    (same : fieldsBackwards indent fields ++ '\n' :: '\x7b' :: rest =
      fieldsBackwards indent others ++ '\n' :: '\x7b' :: remainder) :
    canonicalFields fields = canonicalFields others ∧ rest = remainder := by
  rw [oneLine_object] at oneLine otherOneLine
  simp only [canonicalFields_eq_map]
  induction fields using List.reverseRecOn generalizing others with
  | nil =>
    rcases List.eq_nil_or_concat others with rfl | ⟨others, other, rfl⟩
    · simpa using same
    · simp at same
  | append_singleton fields field inductionHypothesis =>
    rcases List.eq_nil_or_concat others with rfl | ⟨others, other, rfl⟩
    · simp at same
    · simp only [List.mem_append, List.mem_singleton, List.concat_eq_append] at *
      have ⟨keyOneLine, typeOneLine⟩ := oneLine field (.inr rfl)
      have ⟨otherKeyOneLine, otherTypeOneLine⟩ := otherOneLine other (.inr rfl)
      simp only [fieldsBackwards_concat, List.cons_append, List.append_assoc,
        List.cons.injEq, true_and] at same
      -- The type of the last field is read first. What is left of the line is its key, and a
      -- newline stands before that whether or not there are other fields.
      have ⟨sameType, same⟩ :=
        each field (.inr rfl) _ _ _ _ typeOneLine otherTypeOneLine same
      have ⟨before, line⟩ := fieldsBackwards_newline indent fields ('\x7b' :: rest)
      have ⟨otherBefore, otherLine⟩ :=
        fieldsBackwards_newline indent others ('\x7b' :: remainder)
      simp only [List.cons.injEq, true_and, line, otherLine] at same
      have ⟨sameKey, sameBefore⟩ := key_unique (by simpa) (by simpa) same
      have ⟨sameFields, sameRest⟩ := inductionHypothesis
        (fun field member => each field (.inl member))
        (fun field member => oneLine field (.inl member))
        (fun field member => otherOneLine field (.inl member))
        (by rw [line, otherLine, sameBefore])
      refine ⟨?_, sameRest⟩
      have sameName : field.1 = other.1 := String.toList_inj.mp (List.reverse_inj.mp sameKey)
      simp only [List.map_append, sameFields, List.map_cons, List.map_nil, sameName, sameType]

theorem variants_unique {indent : String} {variants others : List TypeExpr}
    {rest remainder : List Char} (each : ∀ variant ∈ variants, variant.Told)
    (oneLine : (union variants).OneLine) (otherOneLine : (union others).OneLine)
    (same : variantsBackwards indent variants ++ rest =
      variantsBackwards indent others ++ remainder) :
    canonicalEach variants = canonicalEach others ∧ rest = remainder := by
  rw [oneLine_union] at oneLine otherOneLine
  simp only [canonicalEach_eq_map]
  induction variants using List.reverseRecOn generalizing others with
  | nil =>
    rcases List.eq_nil_or_concat others with rfl | ⟨others, other, rfl⟩
    · simpa using same
    · simp at same
  | append_singleton variants variant inductionHypothesis =>
    rcases List.eq_nil_or_concat others with rfl | ⟨others, other, rfl⟩
    · simp at same
    · simp only [List.mem_append, List.mem_singleton, List.concat_eq_append] at *
      simp only [variantsBackwards_concat, List.cons_append, List.append_assoc,
        List.cons.injEq, true_and] at same
      have ⟨sameType, same⟩ := each variant (.inr rfl) _ _ _ _ (oneLine _ (.inr rfl))
        (otherOneLine _ (.inr rfl)) same
      have ⟨sameVariants, sameRest⟩ := inductionHypothesis
        (fun variant member => each variant (.inl member))
        (fun variant member => oneLine variant (.inl member))
        (fun variant member => otherOneLine variant (.inl member)) same
      refine ⟨?_, sameRest⟩
      simp only [List.map_append, sameVariants, List.map_cons, List.map_nil, sameType]

theorem backwards_ne_opening (indent : String) (type : TypeExpr) (rest remainder : List Char) :
    '(' :: rest ≠ type.backwards indent ++ remainder := by
  cases type with
  | primitive kind => cases kind <;> simp [Primitive.keyword]
  | _ => simp

theorem told_any : any.Told := by
  intro indent other rest remainder _ _ same
  cases other with
  | primitive kind => cases kind <;> simp [Primitive.keyword] at same
  | _ => simp_all

theorem told_union {variants : List TypeExpr} (each : ∀ variant ∈ variants, variant.Told) :
    (union variants).Told := by
  intro indent other rest remainder oneLine otherOneLine same
  cases other with
  | union others =>
    suffices canonicalEach variants = canonicalEach others ∧ rest = remainder by
      simpa only [canonical, union.injEq] using this
    rcases List.eq_nil_or_concat variants with rfl | ⟨variants, variant, rfl⟩ <;>
      rcases List.eq_nil_or_concat others with rfl | ⟨others, other, rfl⟩ <;>
      simp only [List.concat_eq_append, backwards_union_concat, backwards_union_nil,
        List.cons_append, List.nil_append, List.append_assoc, List.cons.injEq, true_and] at *
    · exact same
    · exact (backwards_ne_opening _ _ _ _ same).elim
    · exact (backwards_ne_opening _ _ _ _ same.symm).elim
    · have rejoined : variantsBackwards indent (variants ++ [variant]) ++ rest =
          variantsBackwards indent (others ++ [other]) ++ remainder := by
        simpa using same
      exact variants_unique each oneLine otherOneLine rejoined
  | primitive kind => cases kind <;> simp [Primitive.keyword] at same
  | _ => simp at same

-- The only texts of two constructors: an array whose element is `any`, and `emptyArray`.
theorem told_array {element : TypeExpr} (inductionHypothesis : element.Told) :
    (array element).Told := by
  intro indent other rest remainder oneLine otherOneLine same
  rw [oneLine_array] at oneLine
  cases other with
  | array other =>
    simp only [backwards_array, List.cons_append, List.cons.injEq, true_and] at same
    have ⟨sameElement, sameRest⟩ :=
      inductionHypothesis _ _ _ _ oneLine (oneLine_array.mp otherOneLine) same
    simp only [canonical, sameElement, sameRest, and_self]
  | emptyArray =>
    have ⟨isAny, sameRest⟩ := inductionHypothesis indent any rest remainder oneLine
      otherOneLine (by simpa using same)
    simp only [canonical, isAny, sameRest, and_self]
  | primitive kind => cases kind <;> simp [Primitive.keyword] at same
  | _ => simp at same

theorem told_emptyArray : emptyArray.Told := by
  intro indent other rest remainder oneLine otherOneLine same
  cases other with
  | array other =>
    have ⟨isAny, sameRest⟩ := told_any indent other rest remainder oneLine
      (oneLine_array.mp otherOneLine) (by simpa using same)
    simp only [canonical, ← isAny, sameRest, and_self]
  | primitive kind => cases kind <;> simp [Primitive.keyword] at same
  | _ => simp_all

theorem told_object {fields : List (String × TypeExpr)} (each : ∀ field ∈ fields, field.2.Told) :
    (object fields).Told := by
  intro indent other rest remainder oneLine otherOneLine same
  cases other with
  | object others =>
    simp only [backwards_object, List.cons_append, List.append_assoc, List.nil_append,
      List.cons.injEq, List.append_cancel_left_eq, true_and] at same
    have ⟨sameFields, sameRest⟩ := fields_unique each oneLine otherOneLine same
    simp only [canonical, sameFields, sameRest, and_self]
  | primitive kind => cases kind <;> simp [Primitive.keyword] at same
  | _ => simp at same

theorem told (type : TypeExpr) : type.Told := by
  induction type using induct with
  | object fields each => exact told_object each
  | array element inductionHypothesis => exact told_array inductionHypothesis
  | union variants each => exact told_union each
  | any => exact told_any
  | emptyArray => exact told_emptyArray
  | primitive kind =>
    intro indent other rest remainder _ _ same
    cases other with
    | primitive other => cases kind <;> cases other <;> simp_all [Primitive.keyword]
    | _ => cases kind <;> simp [Primitive.keyword] at same
  | null | undefined =>
    intro indent other rest remainder _ _ same
    cases other with
    | primitive kind => cases kind <;> simp [Primitive.keyword] at same
    | _ => simp_all

theorem canonical_eq_of_render_eq {indent : String} {type other : TypeExpr}
    (oneLine : type.OneLine) (otherOneLine : other.OneLine)
    (same : type.render indent = other.render indent) : type.canonical = other.canonical :=
  (told type indent other [] [] oneLine otherOneLine (by simp only [backwards, same])).1

end YamlTypes.TypeExpr
