import YamlTypes.Proofs.Include.Expression
import YamlTypes.Proofs.Include.Placement

/-!
Directives as a scan over matches reports them.

A scan goes from one match to the next, and counts lines only in the text
between their beginnings: it keeps the line, where in bytes that line begins, and
how far it has come. Its counters always tell the place that one comes to by
advancing over the single characters, so it reports the same directives.
-/

set_option autoImplicit false

namespace YamlTypes.Include

open Text (trim)
open Text.Utf8 (byteLength byteLength_append byteLength_cons)

structure Match where
  start : Nat
  text : List Char
  captured : Option (List Char)

/-- The matches in a text of an expression that takes at least one character, from left to right
without overlap, after the next `skipped` characters. -/
def Expression.matchesFrom (e : Expression) : Nat → Nat → List Char → List Match
  | _, _, [] => []
  | skipped + 1, offset, c :: rest => e.matchesFrom skipped (offset + c.utf8Size) rest
  | 0, offset, c :: rest =>
    match e.first? (c :: rest) with
    | some way =>
      ⟨offset, way.taken, way.captured⟩ ::
        e.matchesFrom (way.taken.length - 1) (offset + c.utf8Size) rest
    | none => e.matchesFrom 0 (offset + c.utf8Size) rest

def dropBytes : Nat → List Char → List Char
  | _, [] => []
  | bytes, c :: rest => if bytes = 0 then c :: rest else dropBytes (bytes - c.utf8Size) rest

def takeBytes : Nat → List Char → List Char
  | _, [] => []
  | bytes, c :: rest => if bytes = 0 then [] else c :: takeBytes (bytes - c.utf8Size) rest

def slice (text : List Char) (first last : Nat) : List Char :=
  takeBytes (last - first) (dropBytes first text)

def newlines : Nat → List Char → List Nat
  | _, [] => []
  | offset, c :: rest =>
    if c = '\n' then offset :: newlines (offset + c.utf8Size) rest
    else newlines (offset + c.utf8Size) rest

/-- What a scan keeps: its line, the bytes before that line, and the bytes before its place. -/
structure Counters where
  line : Nat := 1
  lineStart : Nat := 0
  scanned : Nat := 0

def Counters.newline (counters : Counters) (offset : Nat) : Counters :=
  { counters with
    line := counters.line + 1
    lineStart := counters.scanned + offset + 1 }

def Counters.reach (text : List Char) (counters : Counters) (start : Nat) : Counters :=
  { (newlines 0 (slice text counters.scanned start)).foldl Counters.newline counters with
    scanned := start }

def scan (text : List Char) : Counters → List Match → List Directive
  | _, [] => []
  | counters, found :: later =>
    let here := counters.reach text found.start
    ⟨⟨found.start, here.line, (slice text here.lineStart found.start).length⟩, found.text,
      trim (found.captured.getD [])⟩ :: scan text here later

theorem dropBytes_append (first second : List Char) :
    dropBytes (byteLength first) (first ++ second) = second := by
  induction first with
  | nil => cases second <;> rfl
  | cons c first inductionHypothesis =>
      have positive := c.utf8Size_pos
      rw [List.cons_append, dropBytes, byteLength_cons, if_neg (by omega), Nat.add_sub_cancel_left,
        inductionHypothesis]

theorem takeBytes_append (first second : List Char) :
    takeBytes (byteLength first) (first ++ second) = first := by
  induction first with
  | nil => cases second <;> rfl
  | cons c first inductionHypothesis =>
      have positive := c.utf8Size_pos
      rw [List.cons_append, takeBytes, byteLength_cons, if_neg (by omega), Nat.add_sub_cancel_left,
        inductionHypothesis]

theorem slice_append (before between after : List Char) :
    slice (before ++ between ++ after) (byteLength before) (byteLength (before ++ between)) =
      between := by
  rw [slice, List.append_assoc, dropBytes_append, byteLength_append, Nat.add_sub_cancel_left,
    takeBytes_append]

theorem newlines_append (offset : Nat) (first second : List Char) :
    newlines offset (first ++ second) =
      newlines offset first ++ newlines (offset + byteLength first) second := by
  induction first generalizing offset with
  | nil => rfl
  | cons c first inductionHypothesis =>
      rw [List.cons_append, newlines, newlines, inductionHypothesis, byteLength_cons, Nat.add_assoc]
      split <;> rfl

/-- Counters tell what lies before the place of a scan: its lines, and the beginning of the last
one. -/
structure Counters.Tell (counters : Counters) (lines start : List Char) : Prop where
  line : counters.line = 1 + (lines ++ start).count '\n'
  lineStart : counters.lineStart = byteLength lines
  wholeLines : WholeLines lines
  sameLine : '\n' ∉ start

theorem Counters.tell_start : Counters.Tell {} [] [] :=
  ⟨rfl, rfl, .inl rfl, List.not_mem_nil⟩

theorem Counters.Tell.push {counters : Counters} {lines start : List Char} {c : Char}
    (tell : counters.Tell lines start) (other : c ≠ '\n') : counters.Tell lines (start ++ [c]) where
  line := by
    have uncounted : [c].count '\n' = 0 := List.count_eq_zero.mpr
      fun member => other (List.mem_singleton.mp member).symm
    rw [← List.append_assoc, List.count_append, uncounted, Nat.add_zero, tell.line]
  lineStart := tell.lineStart
  wholeLines := tell.wholeLines
  sameLine := by
    rw [List.mem_append, List.mem_singleton, not_or]
    exact ⟨tell.sameLine, Ne.symm other⟩

theorem Counters.Tell.newline {counters : Counters} {lines start : List Char} {offset : Nat}
    (tell : counters.Tell lines start)
    (place : counters.scanned + offset = byteLength (lines ++ start)) :
    (counters.newline offset).Tell (lines ++ start ++ ['\n']) [] where
  line := by
    have counted : (lines ++ start ++ ['\n']).count '\n' = (lines ++ start).count '\n' + 1 := by
      rw [List.count_append, List.count_singleton_self]
    rw [Counters.newline, tell.line, List.append_nil, counted, Nat.add_assoc]
  lineStart := by
    rw [Counters.newline, place, byteLength_append _ ['\n']]
    rfl
  wholeLines := .inr List.getLast?_concat
  sameLine := List.not_mem_nil

/-- Going over the newlines of a text keeps what the counters tell. -/
theorem Counters.Tell.foldl_newline {counters : Counters} {lines start : List Char}
    (tell : counters.Tell lines start) (place : counters.scanned = byteLength (lines ++ start))
    (text : List Char) :
    ((newlines 0 text).foldl Counters.newline counters).scanned = counters.scanned ∧
      ∃ further rest, lines ++ start ++ text = further ++ rest ∧
        ((newlines 0 text).foldl Counters.newline counters).Tell further rest := by
  -- From the right, since the last newline decides where the line begins.
  induction text using List.reverseRecOn with
  | nil => exact ⟨rfl, lines, start, List.append_nil _, tell⟩
  | append_singleton text c inductionHypothesis =>
      obtain ⟨stays, further, rest, split, later⟩ := inductionHypothesis
      have last : newlines (byteLength text) [c] = if c = '\n' then [byteLength text] else [] := rfl
      rw [newlines_append, List.foldl_append, Nat.zero_add, last, ← List.append_assoc, split]
      by_cases newline : c = '\n'
      · subst newline
        rw [if_pos rfl, List.foldl_cons, List.foldl_nil]
        refine ⟨stays, _, [], (List.append_nil _).symm, later.newline ?_⟩
        rw [stays, place, ← byteLength_append, split]
      · rw [if_neg newline, List.foldl_nil]
        exact ⟨stays, further, rest ++ [c], List.append_assoc .., later.push newline⟩

theorem Counters.Tell.reach {counters : Counters} {lines start : List Char}
    (tell : counters.Tell lines start) (place : counters.scanned = byteLength (lines ++ start))
    (between after : List Char) :
    ∃ further rest, lines ++ start ++ between = further ++ rest ∧
      (counters.reach (lines ++ start ++ between ++ after)
        (byteLength (lines ++ start ++ between))).Tell further rest := by
  obtain ⟨-, further, rest, split, later⟩ := tell.foldl_newline place between
  refine ⟨further, rest, split, ?_⟩
  rw [Counters.reach, place, slice_append]
  exact ⟨later.line, later.lineStart, later.wholeLines, later.sameLine⟩

/-- From a place that the counters have come to or that lies behind it, a scan over the matches
reports the directives among the pieces. -/
theorem scan_matchesFrom {counters : Counters} {lines start between before : List Char}
    (tell : counters.Tell lines start) (place : counters.scanned = byteLength (lines ++ start))
    (split : before = lines ++ start ++ between) (rest : List Char) (skipped : Nat) :
    scan (before ++ rest) counters
        (Expression.inclusion.matchesFrom skipped (byteLength before) rest) =
      (piecesFrom skipped (Position.start.after before) rest).filterMap Piece.directive? := by
  induction rest generalizing counters lines start between before skipped with
  | nil => cases skipped <;> rfl
  | cons c rest inductionHypothesis =>
      have shift : before ++ c :: rest = before ++ [c] ++ rest := by simp
      have grown : byteLength before + c.utf8Size = byteLength (before ++ [c]) := by
        rw [byteLength_append]
        rfl
      have advanced : (Position.start.after before).advance c =
          Position.start.after (before ++ [c]) := by
        rw [Position.after_append]
        rfl
      have further : before ++ [c] = lines ++ start ++ (between ++ [c]) := by
        rw [split, List.append_assoc]
      cases skipped with
      | succ skipped =>
          rw [Expression.matchesFrom, piecesFrom, grown, advanced, shift]
          exact inductionHypothesis tell place further skipped
      | zero =>
          rw [Expression.matchesFrom, piecesFrom, Expression.directive?_eq_first?, grown, advanced]
          cases matched : Expression.inclusion.first? (c :: rest) with
          | none =>
              rw [shift]
              exact inductionHypothesis tell place further 0
          | some way =>
              obtain ⟨ownLines, ownStart, whole, here⟩ := tell.reach place between (c :: rest)
              rw [← split] at whole here
              subst whole
              have behind : ownLines ++ ownStart ++ [c] = ownLines ++ ownStart ++ [c] := rfl
              have later := inductionHypothesis here rfl behind (way.taken.length - 1)
              rw [← shift] at later
              refine congrArg₂ List.cons ?_ later
              rw [here.wholeLines.after_eq here.sameLine, here.lineStart, slice_append, here.line]

/-- The scan over the matches in a text reports its directives. -/
theorem scan_eq_directives (text : List Char) :
    scan text {} (Expression.inclusion.matchesFrom 0 0 text) = directives text :=
  scan_matchesFrom Counters.tell_start rfl (List.append_nil []).symm text 0

end YamlTypes.Include
