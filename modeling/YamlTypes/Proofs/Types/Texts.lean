import YamlTypes.Proofs.Types.Variants

/-!
The text of a value's type, straight from the value.

Inference makes a tree of types, dropping elements by a text that it does not
keep, and the tree is rendered again. The indent is the same both times. So the
text of an array's type comes of the texts of its items, and no tree is needed
to tell it.
-/

set_option autoImplicit false

namespace YamlTypes

def arrayText (texts : List String) : String :=
  match texts.eraseDups with
  | [] => "any[]"
  | [text] => text ++ "[]"
  | several => "(" ++ " | ".intercalate several ++ ")[]"

namespace Value

mutual

/-- The type of a value at an indent, told by recursion on the value. -/
def describe (indent : String) : Value → String
  | .null => "null"
  | .undefined => "undefined"
  | .bool _ => "boolean"
  | .number _ => "number"
  | .string _ => "string"
  | .array items => arrayText (describeItems indent items)
  | .object fields => "\x7b\n" ++ describeFields indent fields ++ indent ++ "\x7d"
  | .tagged _ => "any"

def describeItems (indent : String) : List Value → List String
  | [] => []
  | item :: rest => item.describe indent :: describeItems indent rest

def describeFields (indent : String) : List (String × Value) → String
  | [] => ""
  | (key, value) :: rest =>
    indent ++ "  " ++ key ++ ": " ++ value.describe (indent ++ "  ") ++ ";\n" ++
      describeFields indent rest

end

theorem describeItems_eq_map (indent : String) (items : List Value) :
    describeItems indent items = items.map (describe indent) := by
  induction items with
  | nil => rfl
  | cons item rest inductionHypothesis => simp [describeItems, inductionHypothesis]

theorem describeFields_eq_join (indent : String) (fields : List (String × Value)) :
    describeFields indent fields = String.join (fields.map fun field =>
      indent ++ "  " ++ field.1 ++ ": " ++ field.2.describe (indent ++ "  ") ++ ";\n") := by
  induction fields with
  | nil => simp [describeFields]
  | cons field rest inductionHypothesis => simp [describeFields, inductionHypothesis]

end Value

theorem infix_intercalate (separator : String) {texts : List String} {text : String}
    (member : text ∈ texts) : text.toList <:+: (separator.intercalate texts).toList := by
  induction texts with
  | nil => cases member
  | cons first rest inductionHypothesis =>
    cases rest with
    | nil =>
      simp only [List.mem_singleton.mp member, String.intercalate_singleton, List.infix_refl]
    | cons second later =>
      rw [String.intercalate_cons_cons, String.toList_append]
      rcases List.mem_cons.mp member with rfl | isLater
      · rw [String.toList_append, List.append_assoc]
        exact (List.prefix_append _ _).isInfix
      · exact (inductionHypothesis isLater).trans (List.suffix_append _ _).isInfix

theorem infix_arrayText {texts : List String} {text : String} (member : text ∈ texts) :
    text.toList <:+: (arrayText texts).toList := by
  have kept := List.mem_eraseDups.mpr member
  unfold arrayText
  split
  next nothing =>
    rw [nothing] at kept
    cases kept
  next only isOnly =>
    rw [isOnly] at kept
    rw [List.mem_singleton.mp kept, String.toList_append]
    exact (List.prefix_append _ _).isInfix
  next =>
    simp only [String.toList_append]
    exact ((infix_intercalate _ kept).trans (List.suffix_append _ _).isInfix).trans
      (List.prefix_append _ _).isInfix

namespace TypeExpr

theorem alternatives_eq_intercalate (texts : List String) :
    alternatives texts = " | ".intercalate texts := by
  induction texts with
  | nil => rfl
  | cons text rest inductionHypothesis =>
    cases rest with
    | nil => rw [alternatives, String.intercalate_singleton]
    | cons second later =>
      rw [alternatives, inductionHypothesis, String.intercalate_cons_cons]
      exact List.cons_ne_nil second later

theorem render_ofElements (indent : String) (types : List TypeExpr) :
    (ofElements indent types).render indent = arrayText (types.map (render indent)) := by
  rw [ofElements, arrayText, ← map_render_distinct]
  cases distinct indent [] types with
  | nil => simp [render]
  | cons first rest =>
    cases rest with
    | nil => simp [render]
    | cons second rest =>
      simp [render, renderEach_eq_map, alternatives_eq_intercalate, String.append_assoc]

theorem renderFields_infer (indent : String) (fields : List (String × Value)) :
    renderFields indent (inferFields indent fields) = String.join (fields.map fun field =>
      indent ++ field.1 ++ ": " ++ field.2.typeText indent ++ ";\n") := by
  induction fields with
  | nil => simp only [inferFields, renderFields, List.map_nil, String.join_nil]
  | cons field rest inductionHypothesis =>
    simp only [inferFields, renderFields, inductionHypothesis, List.map_cons, String.join_cons,
      Value.typeText]

end TypeExpr

namespace Value

theorem typeText_array (indent : String) (items : List Value) :
    (array items).typeText indent = arrayText (items.map (typeText indent)) := by
  rw [typeText, TypeExpr.infer, TypeExpr.render_ofElements, TypeExpr.inferItems_eq_map,
    List.map_map]
  rfl

theorem typeText_object (indent : String) (fields : List (String × Value)) :
    (object fields).typeText indent = "\x7b\n" ++ String.join (fields.map fun field =>
      indent ++ "  " ++ field.1 ++ ": " ++ field.2.typeText (indent ++ "  ") ++ ";\n") ++
        indent ++ "\x7d" := by
  rw [typeText, TypeExpr.infer, TypeExpr.render, TypeExpr.renderFields_infer]

/-- Inferring the type of a value and rendering it at the same indent gives the text that recursion
on the value tells. -/
theorem typeText_eq_describe (value : Value) (indent : String) :
    value.typeText indent = value.describe indent := by
  induction value using induct generalizing indent with
  | array items each =>
    have sameTexts : items.map (typeText indent) = items.map (describe indent) :=
      List.map_congr_left fun item member => each item member indent
    rw [typeText_array, describe, describeItems_eq_map, sameTexts]
  | object fields each =>
    have sameLines : (fields.map fun field =>
          indent ++ "  " ++ field.1 ++ ": " ++ field.2.typeText (indent ++ "  ") ++ ";\n") =
        fields.map fun field =>
          indent ++ "  " ++ field.1 ++ ": " ++ field.2.describe (indent ++ "  ") ++ ";\n" :=
      List.map_congr_left fun field member => by rw [each field member]
    rw [typeText_object, describe, describeFields_eq_join, sameLines]
  | _ => simp [typeText, describe, TypeExpr.infer, TypeExpr.render, Primitive.keyword]

/-- Equal texts of different types count once, and a key that comes twice is listed twice. -/
example :
    describe " " (.array [.array [], .object [("a", .null), ("a", .array [.bool true, .null])],
      .array [.tagged "t"], .object []]) =
      "(any[] | \x7b\n   a: null;\n   a: (boolean | null)[];\n \x7d | \x7b\n \x7d)[]" := by
  decide +kernel

end Value

end YamlTypes
