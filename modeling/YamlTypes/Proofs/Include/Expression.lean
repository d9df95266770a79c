import YamlTypes.Proofs.Include.Grammar

/-!
Directives as the matches of a regular expression.

A text may match an expression in several ways. They are listed in the order in
which they are preferred: as many or as few characters as possible, and a part
rather than none. The first way that the expression for directives matches is
the directive that begins a text.
-/

set_option autoImplicit false

namespace YamlTypes.Include

open Text (isBlank trim trimStart trimEnd)

inductive Expression where
  | literal (text : List Char)
  | char (accepts : Char → Bool)
  /-- Any number of characters, as many as possible or as few as possible. -/
  | many (greedy : Bool) (accepts : Char → Bool)
  | seq (first second : Expression)
  /-- A part that may be left out. -/
  | optional (part : Expression)
  /-- A part whose text is asked for. -/
  | capture (part : Expression)

structure Way where
  taken : List Char
  rest : List Char
  captured : Option (List Char)

/-- A way to go on from a text, behind some characters. -/
def Way.behind (before : List Char) (way : Way) : Way :=
  { way with taken := before ++ way.taken }

def Way.followedBy (way next : Way) : Way :=
  ⟨way.taken ++ next.taken, next.rest, next.captured.or way.captured⟩

theorem Way.followedBy_plain (taken rest : List Char) :
    Way.followedBy ⟨taken, rest, none⟩ = Way.behind taken := by
  funext next
  simp only [followedBy, behind, Option.or_none]

theorem Way.behind_nil : Way.behind [] = id := rfl

theorem Way.behind_append (first second : List Char) :
    Way.behind (first ++ second) = Way.behind first ∘ Way.behind second := by
  funext way
  simp only [behind, Function.comp_apply, List.append_assoc]

theorem Way.behind_followedBy (before : List Char) (way : Way) :
    (way.behind before).followedBy = Way.behind before ∘ way.followedBy := by
  funext next
  simp only [behind, followedBy, Function.comp_apply, List.append_assoc]

theorem Way.followedBy_assoc (first second third : Way) :
    (first.followedBy second).followedBy third = first.followedBy (second.followedBy third) := by
  simp only [followedBy, List.append_assoc, Option.or_assoc]

namespace Expression

def manyWays (greedy : Bool) (accepts : Char → Bool) : List Char → List Way
  | [] => [⟨[], [], none⟩]
  | c :: rest =>
    if accepts c then
      let longer := (manyWays greedy accepts rest).map (Way.behind [c])
      if greedy then longer ++ [⟨[], c :: rest, none⟩] else ⟨[], c :: rest, none⟩ :: longer
    else [⟨[], c :: rest, none⟩]

/-- All ways to match, those that are preferred first. -/
def ways : Expression → List Char → List Way
  | .literal word, text =>
    if word.isPrefixOf text then [⟨word, text.drop word.length, none⟩] else []
  | .char accepts, c :: rest => if accepts c then [⟨[c], rest, none⟩] else []
  | .char _, [] => []
  | .many greedy accepts, text => manyWays greedy accepts text
  | .seq first second, text =>
    (first.ways text).flatMap fun way => (second.ways way.rest).map way.followedBy
  | .optional part, text => part.ways text ++ [⟨[], text, none⟩]
  | .capture part, text => (part.ways text).map fun way => { way with captured := some way.taken }

def first? (e : Expression) (text : List Char) : Option Way := (e.ways text).head?

def ending : Expression := .seq (.many true isSpaceOrTab) (.literal closing)

def operand : Expression :=
  .seq (.char isSpaceOrTab) (.seq (.many true isSpaceOrTab) (.capture (.many false (· != '\n'))))

def inclusion : Expression :=
  .seq (.literal opening) (.seq (.many true isSpaceOrTab) (.seq (.literal word)
    (.seq (.optional operand) ending)))

theorem first?_seq (first second : Expression) (text : List Char) :
    (seq first second).first? text =
      (first.ways text).findSome? fun way => (second.first? way.rest).map way.followedBy := by
  simp only [first?, ways, List.head?_flatMap, List.head?_map]

theorem first?_literal_seq (word : List Char) (next : Expression) (text : List Char) :
    (seq (.literal word) next).first? text =
      if word.isPrefixOf text then
        (next.first? (text.drop word.length)).map (Way.behind word) else none := by
  rw [first?_seq, ways]
  split
  next => rw [List.findSome?_singleton, Way.followedBy_plain]
  next => rfl

theorem first?_char_seq (accepts : Char → Bool) (next : Expression) (c : Char)
    (rest : List Char) :
    (seq (.char accepts) next).first? (c :: rest) =
      if accepts c then (next.first? rest).map (Way.behind [c]) else none := by
  rw [first?_seq, ways]
  split
  next => rw [List.findSome?_singleton, Way.followedBy_plain]
  next => rfl

theorem first?_optional_seq (part next : Expression) (text : List Char) :
    (seq (.optional part) next).first? text =
      ((seq part next).first? text).or (next.first? text) := by
  rw [first?_seq, first?_seq, ways, List.findSome?_append, List.findSome?_singleton,
    Way.followedBy_plain, Way.behind_nil, Option.map_id, id]

theorem ways_seq_assoc (first second third : Expression) (text : List Char) :
    (seq (seq first second) third).ways text = (seq first (seq second third)).ways text := by
  simp only [ways, List.flatMap_assoc, List.map_flatMap, List.flatMap_map, List.map_map,
    Function.comp_def, ← Way.followedBy_assoc]
  rfl

theorem first?_seq_assoc (first second third : Expression) (text : List Char) :
    (seq (seq first second) third).first? text = (seq first (seq second third)).first? text := by
  rw [first?, ways_seq_assoc, first?]

theorem first?_eq_none_of_dropWhile {accepts : Char → Bool} {next : Expression}
    (shorter : ∀ c rest,
      accepts c = true → next.first? rest = none → next.first? (c :: rest) = none)
    {text : List Char} (unmatched : next.first? (text.dropWhile accepts) = none) :
    next.first? text = none := by
  induction text with
  | nil => exact unmatched
  | cons c rest inductionHypothesis =>
      by_cases accepted : accepts c = true
      · rw [List.dropWhile_cons_of_pos accepted] at unmatched
        exact shorter c rest accepted (inductionHypothesis unmatched)
      · rwa [List.dropWhile_cons_of_neg accepted] at unmatched

/-- If what follows still fits with one more character before it, as many are taken as can be. -/
theorem first?_many_seq {accepts : Char → Bool} {next : Expression}
    (shorter : ∀ c rest,
      accepts c = true → next.first? rest = none → next.first? (c :: rest) = none)
    (text : List Char) :
    (seq (.many true accepts) next).first? text =
      (next.first? (text.dropWhile accepts)).map (Way.behind (text.takeWhile accepts)) := by
  induction text with
  | nil =>
      rw [first?_seq, ways, manyWays, List.findSome?_singleton, Way.followedBy_plain]
      rfl
  | cons c rest inductionHypothesis =>
      rw [first?_seq, ways] at inductionHypothesis ⊢
      rw [manyWays]
      by_cases accepted : accepts c = true
      · have longer : ((manyWays true accepts rest).map (Way.behind [c])).findSome?
            (fun way => (next.first? way.rest).map way.followedBy) =
              ((next.first? (rest.dropWhile accepts)).map
                (Way.behind (rest.takeWhile accepts))).map (Way.behind [c]) := by
          rw [← inductionHypothesis, List.findSome?_map, List.map_findSome?]
          simp only [Function.comp_def, Way.behind_followedBy, Option.map_map]
          rfl
        rw [if_pos accepted, if_pos rfl, List.findSome?_append, longer, List.findSome?_singleton,
          List.dropWhile_cons_of_pos accepted, List.takeWhile_cons_of_pos accepted]
        cases found : next.first? (rest.dropWhile accepts) with
        | none =>
            rw [shorter c rest accepted (first?_eq_none_of_dropWhile shorter found)]
            rfl
        | some way => rfl
      · rw [if_neg accepted, List.findSome?_singleton, List.dropWhile_cons_of_neg accepted,
          List.takeWhile_cons_of_neg accepted, Way.followedBy_plain]

theorem first?_literal (word text : List Char) :
    (literal word).first? text =
      if word.isPrefixOf text then some ⟨word, text.drop word.length, none⟩ else none := by
  rw [first?, ways]
  split <;> rfl

theorem ending_first? (text : List Char) :
    ending.first? text =
      if closing.isPrefixOf (text.dropWhile isSpaceOrTab) then
        some ⟨text.takeWhile isSpaceOrTab ++ closing, (text.dropWhile isSpaceOrTab).drop 2, none⟩
      else none := by
  rw [ending, first?_many_seq, first?_literal]
  · split <;> rfl
  · intro c rest blank _
    rw [first?_literal, if_neg]
    intro closes
    cases (List.cons_prefix_cons.mp (List.isPrefixOf_iff_prefix.mp closes)).1
    cases blank

theorem beforeClose?_cons_of_blank {c : Char} (blank : isSpaceOrTab c = true) (rest : List Char) :
    beforeClose? (c :: rest) = (beforeClose? rest).map (c :: ·) := by
  rcases isSpaceOrTab_iff.mp blank with rfl | rfl <;> simp [beforeClose?]

theorem beforeClose?_of_blanks (text : List Char) :
    beforeClose? text =
      (beforeClose? (text.dropWhile isSpaceOrTab)).map (text.takeWhile isSpaceOrTab ++ ·) := by
  induction text with
  | nil => rfl
  | cons c rest inductionHypothesis =>
      by_cases blank : isSpaceOrTab c = true
      · rw [beforeClose?_cons_of_blank blank, inductionHypothesis, Option.map_map,
          List.dropWhile_cons_of_pos blank, List.takeWhile_cons_of_pos blank]
        rfl
      · rw [List.dropWhile_cons_of_neg blank, List.takeWhile_cons_of_neg blank]
        exact (Option.map_id_apply (x := beforeClose? (c :: rest))).symm

theorem beforeClose?_of_closing {text : List Char} (closes : closing.isPrefixOf text = true) :
    beforeClose? text = some [] := by
  obtain ⟨rest, rfl⟩ := List.isPrefixOf_iff_prefix.mp closes
  rfl

/-- What may stand behind the blanks after the word: an operand, and the end. -/
def upToEnd : Expression := .seq (.capture (.many false (· != '\n'))) ending

/-- The end behind some characters, which are captured. -/
def endBehind (way : Way) : Option Way :=
  (ending.first? way.rest).map fun next => ⟨way.taken ++ next.taken, next.rest, some way.taken⟩

theorem endBehind_behind (c : Char) (way : Way) :
    endBehind (way.behind [c]) = (endBehind way).map fun whole =>
      ⟨c :: whole.taken, whole.rest, whole.captured.map (c :: ·)⟩ := by
  rw [endBehind, endBehind, Option.map_map]
  rfl

theorem upToEnd_first? (text : List Char) :
    upToEnd.first? text = (manyWays false (· != '\n') text).findSome? endBehind := by
  rw [upToEnd, first?_seq, ways, ways, List.findSome?_map]
  apply congrArg (List.findSome? · _)
  funext way
  rw [Function.comp_apply, endBehind, ending_first?]
  split <;> rfl

theorem upToEnd_first?_of_ending {text : List Char}
    (ends : closing.isPrefixOf (text.dropWhile isSpaceOrTab) = true) :
    upToEnd.first? text = some ⟨text.takeWhile isSpaceOrTab ++ closing,
      (text.dropWhile isSpaceOrTab).drop 2, some []⟩ := by
  have least : ∃ longer, manyWays false (· != '\n') text = ⟨[], text, none⟩ :: longer := by
    cases text with
    | nil => exact ⟨_, rfl⟩
    | cons c rest =>
        rw [manyWays]
        split <;> exact ⟨_, rfl⟩
  obtain ⟨longer, least⟩ := least
  rw [upToEnd_first?, least, List.findSome?_cons, endBehind, ending_first?, if_pos ends]
  rfl

theorem upToEnd_first?_cons {c : Char} {rest : List Char}
    (unended : ¬closing.isPrefixOf ((c :: rest).dropWhile isSpaceOrTab) = true) :
    upToEnd.first? (c :: rest) =
      if c = '\n' then none
      else (upToEnd.first? rest).map fun whole =>
        ⟨c :: whole.taken, whole.rest, whole.captured.map (c :: ·)⟩ := by
  have notHere : endBehind ⟨[], c :: rest, none⟩ = none := by
    rw [endBehind, ending_first?, if_neg unended, Option.map_none]
  rw [upToEnd_first?, upToEnd_first?, manyWays]
  by_cases newline : c = '\n'
  · rw [if_pos newline, if_neg (by simpa using newline), List.findSome?_singleton, notHere]
  · rw [if_neg newline, if_pos (by simpa using newline), if_neg Bool.false_ne_true,
      List.findSome?_cons, notHere, List.findSome?_map, List.map_findSome?]
    apply congrArg (List.findSome? · _)
    funext way
    exact endBehind_behind c way

/-- The shortest operand is what lies before the first two closing braces of the line, without the
blanks at its end. -/
theorem upToEnd_cases (text : List Char) :
    (beforeClose? text = none ∧ upToEnd.first? text = none) ∨
      ∃ path blanks, (∀ c ∈ blanks, isSpaceOrTab c = true) ∧
        beforeClose? text = some (path ++ blanks) ∧
        upToEnd.first? text =
          some ⟨path ++ blanks ++ closing, text.drop (path ++ blanks ++ closing).length,
            some path⟩ := by
  induction text with
  | nil => exact .inl ⟨rfl, rfl⟩
  | cons c rest inductionHypothesis =>
      by_cases ends : closing.isPrefixOf ((c :: rest).dropWhile isSpaceOrTab) = true
      · -- Nothing is captured here, and all that lies before the end are blanks.
        refine .inr ⟨[], (c :: rest).takeWhile isSpaceOrTab, ?_, ?_, ?_⟩
        · exact fun c member => List.mem_takeWhile_imp member
        · rw [beforeClose?_of_blanks, beforeClose?_of_closing ends, Option.map_some,
            List.append_nil, List.nil_append]
        · have split := List.takeWhile_append_dropWhile (p := isSpaceOrTab) (l := c :: rest)
          have behind := congrArg (List.drop ((c :: rest).takeWhile isSpaceOrTab).length) split
          rw [List.drop_left] at behind
          rw [upToEnd_first?_of_ending ends, List.nil_append, List.length_append, ← List.drop_drop,
            ← behind]
          rfl
      · have notClosed : ∀ tail, c = '}' → rest = '}' :: tail → False := by
          rintro tail rfl rfl
          exact ends (List.isPrefixOf_iff_prefix.mpr ⟨tail, rfl⟩)
        rw [beforeClose?, upToEnd_first?_cons ends]
        · by_cases newline : c = '\n'
          · exact .inl ⟨if_pos newline, if_pos newline⟩
          · rw [if_neg newline, if_neg newline]
            obtain ⟨unclosed, unended⟩ | ⟨path, blanks, blank, closes, matched⟩ :=
              inductionHypothesis
            · rw [unclosed, unended]
              exact .inl ⟨rfl, rfl⟩
            · rw [closes, matched]
              exact .inr ⟨c :: path, blanks, blank, rfl, rfl⟩
        · exact notClosed

theorem upToEnd_first?_eq_none_iff {text : List Char} :
    upToEnd.first? text = none ↔ beforeClose? text = none := by
  obtain ⟨unclosed, unended⟩ | ⟨path, blanks, -, closes, matched⟩ := upToEnd_cases text
  · exact iff_of_true unended unclosed
  · rw [closes, matched]
    exact iff_of_false (Option.some_ne_none _) (Option.some_ne_none _)

theorem trim_append_of_blank {blanks : List Char} (blank : ∀ c ∈ blanks, isBlank c = true)
    (text : List Char) : trim (blanks ++ text) = trim text := by
  rw [trim, trimStart, List.dropWhile_append_of_pos blank]
  rfl

theorem trim_append_blank {blanks : List Char} (blank : ∀ c ∈ blanks, isBlank c = true)
    (text : List Char) : trim (text ++ blanks) = trim text := by
  have nothing : blanks.dropWhile isBlank = [] := List.dropWhile_eq_nil_iff.mpr blank
  have ended : ∀ text, trimEnd (text ++ blanks) = trimEnd text := by
    intro text
    rw [trimEnd, List.reverse_append, List.dropWhile_append_of_pos]
    · rfl
    · exact fun c member => blank c (List.mem_reverse.mp member)
  rw [trim, trim, trimStart, trimStart, List.dropWhile_append]
  split
  next allBlank => rw [nothing, List.isEmpty_iff.mp allBlank]
  next => exact ended _

theorem isBlank_of_isSpaceOrTab {c : Char} (blank : isSpaceOrTab c = true) : isBlank c = true := by
  obtain rfl | rfl := isSpaceOrTab_iff.mp blank <;> rfl

theorem operand_ending_first? (c : Char) (rest : List Char) :
    (seq operand ending).first? (c :: rest) =
      if isSpaceOrTab c then
        ((upToEnd.first? (rest.dropWhile isSpaceOrTab)).map
          (Way.behind (rest.takeWhile isSpaceOrTab))).map (Way.behind [c])
      else none := by
  have shorter : ∀ c rest, isSpaceOrTab c = true → upToEnd.first? rest = none →
      upToEnd.first? (c :: rest) = none := by
    intro c rest blank unended
    rw [upToEnd_first?_eq_none_iff] at unended ⊢
    rw [beforeClose?_cons_of_blank blank, unended, Option.map_none]
  rw [operand, first?_seq_assoc, first?_char_seq, first?_seq_assoc]
  exact congrArg (fun found => if isSpaceOrTab c then found.map (Way.behind [c]) else none)
    (first?_many_seq shorter rest)

theorem ending_first?_eq_none {c : Char} {rest : List Char} (blank : isSpaceOrTab c = true)
    (unclosed : beforeClose? (rest.dropWhile isSpaceOrTab) = none) :
    ending.first? (c :: rest) = none := by
  rw [ending_first?, if_neg]
  intro ends
  rw [List.dropWhile_cons_of_pos blank] at ends
  rw [beforeClose?_of_closing ends] at unclosed
  cases unclosed

theorem trim_between_blanks {before after : List Char}
    (blank : ∀ c ∈ before, isSpaceOrTab c = true) (blankEnd : ∀ c ∈ after, isSpaceOrTab c = true)
    (path : List Char) : trim (before ++ (path ++ after)) = trim path := by
  rw [trim_append_of_blank fun c member => isBlank_of_isSpaceOrTab (blank c member),
    trim_append_blank fun c member => isBlank_of_isSpaceOrTab (blankEnd c member)]

theorem endsWord_eq_false {c : Char} {rest : List Char} (noBlank : ¬isSpaceOrTab c = true)
    (unclosed : ¬closing.isPrefixOf (c :: rest) = true) : endsWord (c :: rest) = false := by
  rw [Bool.eq_false_iff, ne_eq, endsWord_iff, not_or, ← List.isPrefixOf_iff_prefix]
  refine ⟨?_, unclosed⟩
  rintro ⟨d, isHead, isBlank⟩
  cases isHead
  exact noBlank (isSpaceOrTab_iff.mpr isBlank)

/-- Behind the word, the expression matches up to the first two closing braces of the line, if the
word ends there. -/
theorem behindWord_cases (rest : List Char) :
    ((endsWord rest = false ∨ beforeClose? rest = none) ∧
      (seq (.optional operand) ending).first? rest = none) ∨
    ∃ inner way, endsWord rest = true ∧ beforeClose? rest = some inner ∧
      (seq (.optional operand) ending).first? rest = some way ∧
      way.taken = inner ++ closing ∧ trim (way.captured.getD []) = trim inner := by
  rw [first?_optional_seq]
  cases rest with
  | nil => exact .inl ⟨.inl rfl, rfl⟩
  | cons c rest =>
      rw [operand_ending_first?]
      by_cases blank : isSpaceOrTab c = true
      · have wordEnds : endsWord (c :: rest) = true :=
          endsWord_iff.mpr (.inl ⟨c, rfl, isSpaceOrTab_iff.mp blank⟩)
        have closes := beforeClose?_of_blanks rest
        rw [if_pos blank, beforeClose?_cons_of_blank blank]
        obtain ⟨unclosed, unended⟩ | ⟨path, blanks, blankEnd, found, matched⟩ :=
          upToEnd_cases (rest.dropWhile isSpaceOrTab)
        · rw [unclosed, Option.map_none] at closes
          rw [closes, unended, ending_first?_eq_none blank unclosed]
          exact .inl ⟨.inr rfl, rfl⟩
        · rw [found, Option.map_some] at closes
          rw [closes, matched]
          refine .inr ⟨_, _, wordEnds, rfl, rfl, ?_, ?_⟩
          · simp only [Way.behind, List.append_assoc, List.cons_append, List.nil_append]
          · apply Eq.symm
            have before : ∀ d ∈ c :: rest.takeWhile isSpaceOrTab, isSpaceOrTab d = true :=
              List.forall_mem_cons.mpr ⟨blank, fun d member => List.mem_takeWhile_imp member⟩
            exact trim_between_blanks before blankEnd path
      · rw [if_neg blank, Option.none_or, ending_first?, List.dropWhile_cons_of_neg blank,
          List.takeWhile_cons_of_neg blank]
        by_cases ends : closing.isPrefixOf (c :: rest) = true
        · have wordEnds : endsWord (c :: rest) = true :=
            endsWord_iff.mpr (.inr (List.isPrefixOf_iff_prefix.mp ends))
          rw [if_pos ends]
          exact .inr ⟨[], _, wordEnds, beforeClose?_of_closing ends, rfl, rfl, rfl⟩
        · rw [if_neg ends]
          exact .inl ⟨.inl (endsWord_eq_false blank ends), rfl⟩

theorem inclusion_first? (text : List Char) :
    inclusion.first? (opening ++ text) =
      if word.isPrefixOf (text.dropWhile isSpaceOrTab) then
        ((seq (.optional operand) ending).first?
          ((text.dropWhile isSpaceOrTab).drop word.length)).map
            (Way.behind (opening ++ text.takeWhile isSpaceOrTab ++ word))
      else none := by
  rw [inclusion, first?_literal_seq, if_pos, List.drop_left, first?_many_seq, first?_literal_seq]
  · split
    next => rw [Option.map_map, Option.map_map, Way.behind_append, Way.behind_append]
    next => rfl
  · intro c rest blank _
    rw [first?_literal_seq, if_neg]
    intro begins
    cases (List.cons_prefix_cons.mp (List.isPrefixOf_iff_prefix.mp begins)).1
    cases blank
  · exact List.isPrefixOf_iff_prefix.mpr (List.prefix_append _ _)

theorem take_behindWord {before rest inner text : List Char} (split : text = before ++ rest)
    (closes : beforeClose? rest = some inner) :
    text.take (text.length - rest.length + inner.length + 2) = before ++ (inner ++ closing) := by
  obtain ⟨after, rfl, -, -⟩ := beforeClose?_eq_some_iff.mp closes
  rw [split, ← List.append_assoc before]
  apply List.take_left'
  simp only [List.length_append, closing_length]
  omega

theorem afterWord?_eq_none {text : List Char} (unopened : ¬opening.isPrefixOf text = true) :
    afterWord? text = none := by
  rw [Option.eq_none_iff_forall_ne_some]
  intro rest found
  obtain ⟨blanks, -, rfl, -⟩ := afterWord?_eq_some_iff.mp found
  apply unopened
  rw [List.append_assoc, List.append_assoc]
  exact List.isPrefixOf_iff_prefix.mpr (List.prefix_append _ _)

theorem split_at_word {text : List Char}
    (isWord : word.isPrefixOf (text.dropWhile isSpaceOrTab) = true) :
    text = text.takeWhile isSpaceOrTab ++ word ++
      (text.dropWhile isSpaceOrTab).drop word.length := by
  have behind := List.prefix_iff_eq_append.mp (List.isPrefixOf_iff_prefix.mp isWord)
  rw [List.append_assoc, behind, List.takeWhile_append_dropWhile]

/-- What begins a text is the directive that the expression matches first. -/
theorem directive?_eq_first? (position : Position) (text : List Char) :
    directive? position text = (inclusion.first? text).map fun way =>
      ⟨position, way.taken, trim (way.captured.getD [])⟩ := by
  by_cases begins : opening.isPrefixOf text = true
  · obtain ⟨text, rfl⟩ := List.isPrefixOf_iff_prefix.mp begins
    have after : afterWord? (opening ++ text) = _ := afterWord?_cons_cons '{' '{' text
    rw [inclusion_first?, directive?, after]
    by_cases isWord : word.isPrefixOf (text.dropWhile isSpaceOrTab) = true
    · rw [if_pos isWord]
      obtain ⟨absent, unmatched⟩ | ⟨inner, way, wordEnds, closes, matched, taken, same⟩ :=
        behindWord_cases ((text.dropWhile isSpaceOrTab).drop word.length)
      · rw [unmatched, Option.map_none, Option.map_none]
        obtain unended | unclosed := absent
        · rw [if_neg]
          · rfl
          · rw [unended]
            exact fun found => Bool.false_ne_true found.2.2.2
        · split
          next => simp only [Option.bind_eq_bind, Option.bind_some, unclosed, Option.bind_none]
          next => rfl
      · have split : opening ++ text = opening ++ text.takeWhile isSpaceOrTab ++ word ++
            (text.dropWhile isSpaceOrTab).drop word.length := by
          rw [List.append_assoc, List.append_assoc, ← List.append_assoc _ word,
            ← split_at_word isWord]
        rw [if_pos ⟨rfl, rfl, isWord, wordEnds⟩, matched]
        simp only [Option.bind_eq_bind, Option.bind_some, closes, Option.map_some,
          take_behindWord split closes, same, Way.behind, taken]
    · rw [if_neg isWord, if_neg]
      · rfl
      · exact fun found => isWord found.2.2.1
  · have unmatched : inclusion.first? text = none := by
      rw [inclusion, first?_literal_seq, if_neg begins]
    rw [unmatched, directive?, afterWord?_eq_none begins]
    rfl

/-- The operand is no longer than it has to be, and the blanks around it are left out. -/
example : (inclusion.first? (opening ++ word ++ [' ', '\t', 'a', ' '] ++ closing ++ closing)).map
    (fun way => (way.taken.length, way.captured)) = some (15, some ['a']) := by decide

end Expression

end YamlTypes.Include
