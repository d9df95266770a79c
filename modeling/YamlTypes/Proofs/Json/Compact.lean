import YamlTypes.Proofs.Json.Reading

/-!
Reading back the layout without blanks.

It spells the same tokens as the other layout, with nothing between them. A word
still ends where it should, since a comma or a closing bracket follows it.
-/

set_option autoImplicit false

namespace YamlTypes.Json

variable {text : List Char} {tokens : List Token}

theorem ends_comma : Ends [','] [.comma] := ends_punctuation fun _ => rfl

theorem ends_colon : Ends [':'] [.colon] := ends_punctuation fun _ => rfl

theorem Spells.enclose {before after : Token} (spells : Spells text tokens)
    (opening closing : Char) (opens : ∀ rest, lexeme? opening rest = some ([before], rest))
    (closes : ∀ rest, lexeme? closing rest = some ([after], rest))
    (noWord : isWordChar closing = false) :
    Ends (opening :: (text ++ [closing])) (before :: (tokens ++ [after])) := by
  have front : Ends [opening] [before] := ends_punctuation opens
  exact (front.append_spells spells).append noWord (ends_punctuation closes)

theorem spells_compactItems {items : List Json}
    (each : ∀ item ∈ items, Spells item.compact.toList item.toTokens) :
    Spells (compactItems items).toList (itemTokens items) := by
  induction items with
  | nil =>
      have nothing : Ends [] [] := ends_blank (List.forall_mem_nil _)
      exact nothing.spells
  | cons item rest inductionHypothesis =>
      have one := each item List.mem_cons_self
      cases rest with
      | nil => exact one
      | cons next later =>
          have others := inductionHypothesis fun i member => each i (List.mem_cons_of_mem _ member)
          have first := one.append (by decide) ends_comma
          have text : (compactItems (item :: next :: later)).toList =
              item.compact.toList ++ [','] ++ (compactItems (next :: later)).toList := by
            change (item.compact ++ "," ++ compactItems (next :: later)).toList = _
            rw [String.toList_append, String.toList_append]
            rfl
          have parts : itemTokens (item :: next :: later) =
              item.toTokens ++ [.comma] ++ itemTokens (next :: later) := by
            rw [List.append_assoc]
            rfl
          rw [text, parts]
          exact first.append_spells others

theorem spells_compactFields {fields : List (String × Json)}
    (each : ∀ field ∈ fields, Spells field.2.compact.toList field.2.toTokens) :
    Spells (compactFields fields).toList (fieldTokens fields) := by
  induction fields with
  | nil =>
      have nothing : Ends [] [] := ends_blank (List.forall_mem_nil _)
      exact nothing.spells
  | cons field rest inductionHypothesis =>
      obtain ⟨key, value⟩ := field
      have one : Spells (quote key ++ ":" ++ value.compact).toList
          (.string key :: .colon :: value.toTokens) := by
        rw [String.toList_append, String.toList_append]
        exact ((ends_quote key).append ends_colon).append_spells
          (each (key, value) List.mem_cons_self)
      cases rest with
      | nil => exact one
      | cons next later =>
          have others := inductionHypothesis fun f member => each f (List.mem_cons_of_mem _ member)
          have first := one.append (by decide) ends_comma
          have text : (compactFields ((key, value) :: next :: later)).toList =
              (quote key ++ ":" ++ value.compact).toList ++ [','] ++
                (compactFields (next :: later)).toList := by
            change (quote key ++ ":" ++ value.compact ++ "," ++
              compactFields (next :: later)).toList = _
            rw [String.toList_append, String.toList_append]
            rfl
          have parts : fieldTokens ((key, value) :: next :: later) =
              .string key :: .colon :: value.toTokens ++ [.comma] ++
                fieldTokens (next :: later) := by
            rw [List.append_assoc]
            rfl
          rw [text, parts]
          exact first.append_spells others

theorem WellFormed.spells_compact {json : Json} (wellFormed : json.WellFormed) :
    Spells json.compact.toList json.toTokens := by
  induction wellFormed with
  | null =>
      change Spells "null".toList [.null]
      exact spells_word (List.all_eq_true.mp rfl) rfl
  | bool b =>
      change Spells (boolText b).toList [.bool b]
      cases b <;> exact spells_word (List.all_eq_true.mp rfl) rfl
  | number number => exact spells_number number
  | string s => exact (ends_quote s).spells
  | halfPair => exact ends_halfPair.spells
  | @array items _ each =>
      have enclosed := (spells_compactItems each).enclose '[' ']'
        (fun _ => rfl) (fun _ => rfl) rfl
      rw [compact, String.toList_append, String.toList_append]
      exact enclosed.spells
  | @object fields _ each =>
      have enclosed := (spells_compactFields each).enclose '\x7b' '\x7d'
        (fun _ => rfl) (fun _ => rfl) rfl
      rw [compact, String.toList_append, String.toList_append]
      exact enclosed.spells

/-- A document whose numbers are numbers is read back from its text without blanks. -/
theorem WellFormed.read?_compact {json : Json} (wellFormed : json.WellFormed) :
    read? json.compact = some json := wellFormed.spells_compact.read?

end YamlTypes.Json
