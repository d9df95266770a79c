import YamlTypes.Proofs.Types.Variants

/-!
Types at other indents.

Every line of a type's text but the first begins with the indent, and nothing
else in the text depends on it. Nor does the type: where no key holds a newline,
the elements of an array are told apart alike at every indent.
-/

set_option autoImplicit false

namespace YamlTypes

def Text.indentLines (indent text : List Char) : List Char :=
  text.flatMap fun c => if c = '\n' then c :: indent else [c]

namespace Text

variable (indent : List Char)

@[simp]
theorem indentLines_nil : indentLines indent [] = [] := rfl

@[simp]
theorem indentLines_append (first second : List Char) :
    indentLines indent (first ++ second) = indentLines indent first ++ indentLines indent second :=
  List.flatMap_append

@[simp]
theorem indentLines_newline (rest : List Char) :
    indentLines indent ('\n' :: rest) = '\n' :: (indent ++ indentLines indent rest) := rfl

@[simp]
theorem indentLines_cons {c : Char} (inLine : c ≠ '\n') (rest : List Char) :
    indentLines indent (c :: rest) = c :: indentLines indent rest := by
  rw [indentLines, List.flatMap_cons, if_neg inLine]
  rfl

theorem indentLines_of_notMem {text : List Char} (oneLine : '\n' ∉ text) :
    indentLines indent text = text := by
  induction text with
  | nil => rfl
  | cons c rest inductionHypothesis =>
    rw [List.mem_cons, not_or] at oneLine
    rw [indentLines_cons indent (Ne.symm oneLine.1), inductionHypothesis oneLine.2]

end Text

open Text (indentLines indentLines_of_notMem)

namespace TypeExpr

attribute [local simp] render renderFields renderEach

variable (indent : String) {inner : String}

-- The lines of fields begin with the indent, where the shift has it behind the newline before them.
-- So they are compared with one more indent at their end, that of what comes next.
theorem toList_renderFields_append {fields : List (String × TypeExpr)} (flat : '\n' ∉ inner.toList)
    (oneLine : ∀ field ∈ fields, '\n' ∉ field.1.toList)
    (each : ∀ field ∈ fields, (field.2.render (indent ++ inner)).toList =
      indentLines indent.toList (field.2.render inner).toList) (after : List Char) :
    (renderFields (indent ++ inner) fields).toList ++ (indent.toList ++ after) =
      indent.toList ++ (indentLines indent.toList (renderFields inner fields).toList ++ after) := by
  induction fields with
  | nil => simp
  | cons field rest inductionHypothesis =>
    rw [List.forall_mem_cons] at oneLine each
    simp [each.1, inductionHypothesis oneLine.2 each.2, indentLines_of_notMem _ flat,
      indentLines_of_notMem _ oneLine.1]

theorem toList_alternatives {variants : List TypeExpr}
    (each : ∀ variant ∈ variants, (variant.render (indent ++ inner)).toList =
      indentLines indent.toList (variant.render inner).toList) :
    (alternatives (renderEach (indent ++ inner) variants)).toList =
      indentLines indent.toList (alternatives (renderEach inner variants)).toList := by
  induction variants with
  | nil => simp [alternatives]
  | cons variant rest inductionHypothesis =>
    rw [List.forall_mem_cons] at each
    have later := inductionHypothesis each.2
    cases rest with
    | nil => simp [alternatives, each.1]
    | cons second rest =>
      simp only [renderEach, alternatives] at later ⊢
      simp [each.1, later]

/-- The text of a type at a deeper indent is its text with the difference behind each newline. -/
theorem toList_render_append {type : TypeExpr} (oneLine : type.OneLine)
    (flat : '\n' ∉ inner.toList) :
    (type.render (indent ++ inner)).toList =
      indentLines indent.toList (type.render inner).toList := by
  induction type using induct generalizing inner with
  | object fields each =>
    rw [oneLine_object] at oneLine
    have deeper : '\n' ∉ (inner ++ "  ").toList := by simpa using flat
    have lines := toList_renderFields_append indent deeper
      (fun field member => (oneLine field member).1)
      (fun field member => each field member (oneLine field member).2 deeper)
    simp [String.append_assoc, indentLines_of_notMem _ flat, lines]
  | array element inductionHypothesis =>
    simp [inductionHypothesis (oneLine_array.mp oneLine) flat]
  | union variants each =>
    rw [oneLine_union] at oneLine
    have texts := toList_alternatives indent fun variant member =>
      each variant member (oneLine variant member) flat
    simp [texts]
  | primitive kind => cases kind <;> simp [Primitive.keyword]
  | _ => simp

theorem ofElements_eq {types : List TypeExpr} (oneLine : ∀ type ∈ types, type.OneLine) :
    ofElements indent types = ofElements "" types := by
  simp only [ofElements, distinct_eq_of_oneLine _ oneLine]

theorem infer_eq {value : Value} (oneLine : ∀ key ∈ value.keys, '\n' ∉ key.toList) :
    infer indent value = infer "" value := by
  induction value using Value.induct generalizing indent with
  | array items each =>
    rw [Value.forall_mem_keys_array] at oneLine
    have sameTypes : items.map (infer indent) = items.map (infer "") :=
      List.map_congr_left fun item member => each item member indent (oneLine item member)
    simp only [infer, inferItems_eq_map, sameTypes]
    refine ofElements_eq indent (List.forall_mem_map.mpr fun item member => ?_)
    exact oneLine_infer (oneLine item member) ""
  | object fields each =>
    rw [Value.forall_mem_keys_object] at oneLine
    simp only [infer, inferFields_eq_map]
    refine congrArg object (List.map_congr_left fun field member => ?_)
    have fieldOneLine := (oneLine field member).2
    rw [each field member _ fieldOneLine, each field member ("" ++ "  ") fieldOneLine]
  | _ => simp only [infer]

/-- A value without newlines in its keys has the same type at every indent, and the text of the type
there is the one at no indent with the indent behind each newline. -/
theorem inferred_at_indent {value : Value} (oneLine : ∀ key ∈ value.keys, '\n' ∉ key.toList) :
    (∀ indent, infer indent value = infer "" value) ∧
      ∀ indent, (value.typeText indent).toList =
        indentLines indent.toList (value.typeText "").toList := by
  refine ⟨fun indent => infer_eq indent oneLine, fun indent => ?_⟩
  have flat : '\n' ∉ "".toList := by simp
  have moved := toList_render_append indent (oneLine_infer oneLine "") flat
  rw [String.append_empty] at moved
  rw [Value.typeText, infer_eq indent oneLine, moved, Value.typeText]

def nestedValue : Value :=
  .array [.object [("a", .array [.null, .object [("b", .array [])], .null])], .null,
    .object [("a", .array [.null, .object [("b", .array [.tagged "t"])]])]]

theorem inferred_at_indent_nested :
    (∀ key ∈ nestedValue.keys, '\n' ∉ key.toList) ∧
      infer "> " nestedValue = infer "" nestedValue ∧
      nestedValue.typeText "> " =
        "(\x7b\n>   a: (null | \x7b\n>     b: any[];\n>   \x7d)[];\n> \x7d | null)[]" := by
  have oneLine : ∀ key ∈ nestedValue.keys, '\n' ∉ key.toList := by decide
  have atIndent := inferred_at_indent oneLine
  exact ⟨oneLine, atIndent.1 "> ",
    String.toList_inj.mp ((atIndent.2 "> ").trans (by decide +kernel))⟩

/-- A key that goes on in the next line, and two keys that look like it if nothing is indented. -/
def foldedValue : Value :=
  .array [.object [("a: null;\n  b", .null)], .object [("a", .null), ("b", .null)]]

example :
    foldedValue.typeText "" = "\x7b\n  a: null;\n  b: null;\n\x7d[]" ∧
      foldedValue.typeText " " =
        "(\x7b\n   a: null;\n  b: null;\n \x7d | \x7b\n   a: null;\n   b: null;\n \x7d)[]" := by
  decide +kernel

end TypeExpr

end YamlTypes
