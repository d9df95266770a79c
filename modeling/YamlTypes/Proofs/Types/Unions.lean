import Mathlib.Data.List.Nodup
import YamlTypes.Proofs.Fields
import YamlTypes.Proofs.Types.Texts

/-!
Unions in inferred types.

A union stands only directly inside an array type, and it comes of an array of
the value that stands at the same place. Its variants were told apart by their
texts at the indent that inference had reached there. Rendering reaches the same
indent, so they are different as they are written.
-/

set_option autoImplicit false

namespace YamlTypes

open Value (Step)

/-- The indent of what stands at the end of some steps: fields stand further in. -/
def indentAt (indent : String) (path : List Step) : String :=
  path.foldl (fun indent step =>
    match step with
    | .field _ => indent ++ "  "
    | .item => indent) indent

theorem indentAt_field (indent : String) (path : List Step) (position : Nat) :
    indentAt indent (path ++ [.field position]) = indentAt indent path ++ "  " := by
  simp only [indentAt, List.foldl_append, List.foldl_cons, List.foldl_nil]

theorem indentAt_item (indent : String) (path : List Step) :
    indentAt indent (path ++ [.item]) = indentAt indent path := by
  simp only [indentAt, List.foldl_append, List.foldl_cons, List.foldl_nil]

namespace TypeExpr

/-- The nodes of a type, each with the steps that lead to it and the node around it. The variants of
a union stand where the union does. -/
inductive Stands (type : TypeExpr) : List Step → Option TypeExpr → TypeExpr → Prop
  | whole : Stands type [] none type
  | field {path : List Step} {around : Option TypeExpr} {fields : List (String × TypeExpr)}
      {position : Nat} {field : String × TypeExpr} :
      Stands type path around (.object fields) → fields[position]? = some field →
      Stands type (path ++ [.field position]) (some (.object fields)) field.2
  | element {path : List Step} {around : Option TypeExpr} {element : TypeExpr} :
      Stands type path around (.array element) →
      Stands type (path ++ [.item]) (some (.array element)) element
  | variant {path : List Step} {around : Option TypeExpr} {variants : List TypeExpr}
      {variant : TypeExpr} :
      Stands type path around (.union variants) → variant ∈ variants →
      Stands type path (some (.union variants)) variant

/-- What the variants are that the items of an array come to at an indent. -/
structure VariantsOf (indent : String) (items : List Value) (variants : List TypeExpr) : Prop where
  several : 2 ≤ variants.length
  flat : ∀ variant ∈ variants, ∀ others, variant ≠ .union others
  apart : variants.Pairwise fun first second => first.render indent ≠ second.render indent
  inferred : ∀ variant ∈ variants, ∃ item ∈ items, infer indent item = variant
  covers : ∀ item ∈ items, ∃! variant, variant ∈ variants ∧
    (infer indent item).render indent = variant.render indent
  inOrder : variants.Pairwise fun first second =>
    (items.map (Value.typeText indent)).idxOf (first.render indent) <
      (items.map (Value.typeText indent)).idxOf (second.render indent)

theorem ofElements_cases (indent : String) (types : List TypeExpr) :
    ofElements indent types = .emptyArray ∨
    (∃ type ∈ types, ofElements indent types = .array type) ∨
    2 ≤ (distinct indent [] types).length ∧
      ofElements indent types = .array (.union (distinct indent [] types)) := by
  rw [ofElements]
  cases kept : distinct indent [] types with
  | nil => exact .inl rfl
  | cons first rest =>
      cases rest with
      | nil =>
          have isKept : first ∈ distinct indent [] types := by
            rw [kept]
            exact List.mem_singleton_self first
          exact .inr (.inl ⟨first, mem_of_mem_distinct isKept, rfl⟩)
      | cons second rest => exact .inr (.inr ⟨by simp, rfl⟩)

theorem infer_ne_union (indent : String) (value : Value) (variants : List TypeExpr) :
    infer indent value ≠ .union variants := by
  cases value with
  | array items =>
      rw [infer]
      rcases ofElements_cases indent (inferItems indent items) with
        isEmpty | ⟨type, -, isPlain⟩ | ⟨-, isUnion⟩
      · simp [isEmpty]
      · simp [isPlain]
      · simp [isUnion]
  | null | undefined | bool _ | number _ | string _ | object _ | tagged _ => simp [infer]

/-- Types of equal texts are kept once, so the texts tell the variants apart, and they stand in the
order in which the texts occur. -/
theorem variantsOf_distinct {indent : String} {items : List Value}
    (several : 2 ≤ (distinct indent [] (inferItems indent items)).length) :
    VariantsOf indent items (distinct indent [] (inferItems indent items)) := by
  have itemTexts : (inferItems indent items).map (render indent) =
      items.map (Value.typeText indent) := by
    rw [inferItems_eq_map, List.map_map]
    rfl
  have texts := map_render_distinct indent (inferItems indent items)
  rw [itemTexts] at texts
  have inOrder := Fields.pairwise_idxOf_eraseDups (items.map (Value.typeText indent))
  rw [← texts, List.pairwise_map] at inOrder
  have apart : (distinct indent [] (inferItems indent items)).Pairwise fun first second =>
      first.render indent ≠ second.render indent := by
    refine inOrder.imp fun {first second} before same => ?_
    rw [same] at before
    exact Nat.lt_irrefl _ before
  have inferred : ∀ variant ∈ distinct indent [] (inferItems indent items),
      ∃ item ∈ items, infer indent item = variant := by
    intro variant isVariant
    have isType := mem_of_mem_distinct isVariant
    rw [inferItems_eq_map] at isType
    exact List.mem_map.mp isType
  refine ⟨several, ?_, apart, inferred, ?_, inOrder⟩
  · intro variant isVariant others
    rcases inferred variant isVariant with ⟨item, -, rfl⟩
    exact infer_ne_union indent item others
  · intro item member
    have isType : infer indent item ∈ inferItems indent items := by
      rw [inferItems_eq_map]
      exact List.mem_map_of_mem member
    rcases exists_mem_distinct isType List.not_mem_nil with ⟨variant, isVariant, sameText⟩
    refine ⟨variant, ⟨isVariant, sameText.symm⟩, ?_⟩
    rintro other ⟨isOther, otherText⟩
    exact List.inj_on_of_nodup_map (List.pairwise_map.mpr apart) isOther isVariant
      (otherText.symm.trans sameText.symm)

/-- A node of the type of a value is the type of the part at its place, or it is the union in the
type of an array there. -/
inductive Arises (indent : String) (value : Value) :
    List Step → Option TypeExpr → TypeExpr → Prop
  | part {path : List Step} {around : Option TypeExpr} {part : Value} {node : TypeExpr} :
      value.Within path part → infer (indentAt indent path) part = node →
      Arises indent value path around node
  | union {path : List Step} {items : List Value} {variants : List TypeExpr} :
      value.Within path (.array items) →
      infer (indentAt indent path) (.array items) = .array (.union variants) →
      2 ≤ variants.length →
      distinct (indentAt indent path) [] (inferItems (indentAt indent path) items) = variants →
      Arises indent value (path ++ [.item]) (some (.array (.union variants))) (.union variants)

theorem Arises.field {indent : String} {value : Value} {path : List Step}
    {around : Option TypeExpr} {fields : List (String × TypeExpr)} {position : Nat}
    {field : String × TypeExpr} (arises : Arises indent value path around (.object fields))
    (isField : fields[position]? = some field) :
    Arises indent value (path ++ [.field position]) (some (.object fields)) field.2 := by
  cases arises with
  | @part _ _ part _ within isType =>
      cases part with
      | object parts =>
          rw [infer, TypeExpr.object.injEq, inferFields_eq_map] at isType
          rw [← isType, List.getElem?_map, Option.map_eq_some_iff] at isField
          rcases isField with ⟨source, isSource, rfl⟩
          refine .part (within.field isSource) ?_
          rw [indentAt_field]
      | array items =>
          rw [infer] at isType
          rcases ofElements_cases (indentAt indent path) (inferItems (indentAt indent path) items)
            with isEmpty | ⟨type, -, isPlain⟩ | ⟨-, isUnion⟩
          · cases isEmpty.symm.trans isType
          · cases isPlain.symm.trans isType
          · cases isUnion.symm.trans isType
      | null | undefined | bool _ | number _ | string _ | tagged _ => simp [infer] at isType

theorem Arises.element {indent : String} {value : Value} {path : List Step}
    {around : Option TypeExpr} {element : TypeExpr}
    (arises : Arises indent value path around (.array element)) :
    Arises indent value (path ++ [.item]) (some (.array element)) element := by
  cases arises with
  | @part _ _ part _ within isType =>
      cases part with
      | array items =>
          have whole := isType
          rw [infer] at isType
          rcases ofElements_cases (indentAt indent path) (inferItems (indentAt indent path) items)
            with isEmpty | ⟨type, member, isPlain⟩ | ⟨several, isUnion⟩
          · cases isEmpty.symm.trans isType
          · obtain rfl : type = element := TypeExpr.array.inj (isPlain.symm.trans isType)
            rw [inferItems_eq_map] at member
            rcases List.mem_map.mp member with ⟨item, isItem, isElement⟩
            refine .part (within.item isItem) ?_
            rw [indentAt_item, isElement]
          · rw [isUnion, TypeExpr.array.injEq] at isType
            subst isType
            exact .union within whole several rfl
      | null | undefined | bool _ | number _ | string _ | object _ | tagged _ =>
          simp [infer] at isType

theorem Arises.variant {indent : String} {value : Value} {path : List Step}
    {around : Option TypeExpr} {variants : List TypeExpr} {variant : TypeExpr}
    (arises : Arises indent value path around (.union variants)) (isVariant : variant ∈ variants) :
    Arises indent value path (some (.union variants)) variant := by
  cases arises with
  | part _ isType => exact absurd isType (infer_ne_union _ _ _)
  | union within _ _ kept =>
      rw [← kept] at isVariant
      have isType := mem_of_mem_distinct isVariant
      rw [inferItems_eq_map] at isType
      rcases List.mem_map.mp isType with ⟨item, isItem, isType⟩
      refine .part (within.item isItem) ?_
      rw [indentAt_item, isType]

theorem Stands.arises {indent : String} {value : Value} {path : List Step}
    {around : Option TypeExpr} {node : TypeExpr}
    (stands : Stands (infer indent value) path around node) :
    Arises indent value path around node := by
  induction stands with
  | whole => exact .part .whole rfl
  | field _ isField inductionHypothesis => exact inductionHypothesis.field isField
  | element _ inductionHypothesis => exact inductionHypothesis.element
  | variant _ isVariant inductionHypothesis => exact inductionHypothesis.variant isVariant

theorem infix_renderFields {indent : String} {fields : List (String × TypeExpr)}
    {field : String × TypeExpr} (member : field ∈ fields) :
    (field.2.render indent).toList <:+: (renderFields indent fields).toList := by
  induction fields with
  | nil => cases member
  | cons first rest inductionHypothesis =>
      obtain ⟨key, type⟩ := first
      simp only [renderFields, String.toList_append]
      rcases List.mem_cons.mp member with rfl | later
      · exact (List.infix_append_of_infix_left (List.suffix_append _ _).isInfix).trans
          (List.prefix_append _ _).isInfix
      · exact (inductionHypothesis later).trans (List.suffix_append _ _).isInfix

theorem Stands.infix {type : TypeExpr} {path : List Step} {around : Option TypeExpr}
    {node : TypeExpr} (stands : Stands type path around node) (indent : String) :
    (node.render (indentAt indent path)).toList <:+: (type.render indent).toList := by
  induction stands with
  | whole => exact List.infix_refl _
  | @field path around fields position field _ isField inductionHypothesis =>
      refine List.IsInfix.trans ?_ inductionHypothesis
      rw [indentAt_field]
      simp only [render, String.toList_append, List.append_assoc]
      exact ((infix_renderFields (List.mem_of_getElem? isField)).trans
        (List.prefix_append _ _).isInfix).trans (List.suffix_append _ _).isInfix
  | element _ inductionHypothesis =>
      refine List.IsInfix.trans ?_ inductionHypothesis
      rw [indentAt_item]
      simp only [render, String.toList_append]
      exact (List.prefix_append _ _).isInfix
  | @variant path around variants variant _ isVariant inductionHypothesis =>
      refine List.IsInfix.trans ?_ inductionHypothesis
      simp only [render, renderEach_eq_map, alternatives_eq_intercalate, String.toList_append]
      exact ((infix_intercalate _ (List.mem_map_of_mem isVariant)).trans
        (List.suffix_append _ _).isInfix).trans (List.prefix_append _ _).isInfix

/-- A union in the type of a value is the element of an array type, the type of an array of the
value at the same place. Its variants are told apart at the indent where it is rendered: they are
two or more, none of them a union, of different texts, each of them the type of an item, and one of
them for the text of every item, in the order in which the texts first occur. -/
theorem inferred_unions {indent : String} {value : Value} {path : List Step}
    {around : Option TypeExpr} {variants : List TypeExpr}
    (stands : Stands (infer indent value) path around (.union variants)) :
    around = some (.array (.union variants)) ∧
      ((union variants).render (indentAt indent path)).toList <:+:
        (value.typeText indent).toList ∧
      ∃ place items, path = place ++ [.item] ∧ value.Within place (.array items) ∧
        infer (indentAt indent path) (.array items) = .array (.union variants) ∧
        VariantsOf (indentAt indent path) items variants := by
  have rendered := stands.infix indent
  cases stands.arises with
  | part _ isType => exact absurd isType (infer_ne_union _ _ _)
  | @union place items _ within isType several kept =>
      refine ⟨rfl, rendered, place, items, rfl, within, ?_⟩
      rw [indentAt_item]
      refine ⟨isType, ?_⟩
      subst kept
      exact variantsOf_distinct several

def layeredValue : Value :=
  .object [("a", .array [.object [("b", .array [.null, .array [.bool true, .null, .bool false],
    .null])]])]

def layeredType : TypeExpr :=
  .object [("a", .array (.object [("b", .array (.union [.null,
    .array (.union [.primitive .boolean, .null])]))]))]

theorem inferred_unions_layered :
    Stands (infer "> " layeredValue) [.field 0, .item, .field 0, .item, .item]
      (some (.array (.union [.primitive .boolean, .null])))
      (.union [.primitive .boolean, .null]) ∧
    ∃ place items, [.field 0, .item, .field 0, .item, .item] = place ++ [.item] ∧
      layeredValue.Within place (.array items) ∧
      infer ">     " (.array items) = .array (.union [.primitive .boolean, .null]) ∧
      VariantsOf ">     " items [.primitive .boolean, .null] := by
  have stands : Stands (infer "> " layeredValue) [.field 0, .item, .field 0, .item, .item]
      (some (.array (.union [.primitive .boolean, .null])))
      (.union [.primitive .boolean, .null]) := by
    have isType : infer "> " layeredValue = layeredType := rfl
    rw [isType]
    have outer := @Stands.field layeredType _ _ _ 0 _ .whole rfl
    have inner := @Stands.field layeredType _ _ _ 0 _ outer.element rfl
    exact (inner.element.variant (List.mem_cons_of_mem _ List.mem_cons_self)).element
  exact ⟨stands, (inferred_unions stands).2.2⟩

end TypeExpr

end YamlTypes
