import YamlTypes.Proofs.Discovery.Found

/-!
How a directory is spelled.

The text of a directory is its segments with slashes between them, after the root
if there is one, and then nothing but slashes. So the segments of the path are
those of the directory and empty ones, and together they are as long as the text
and have all its characters but the slashes.
-/

set_option autoImplicit false

namespace YamlTypes.Discovery

open YamlTypes.Path

variable {directory : Path}

/-- A directory is spelled with its segments, after the root if there is one, and with slashes. -/
theorem exists_spelling (given : directory.text ≠ "") :
    ∃ relative slashes : List Char, (∀ c ∈ slashes, c = '/') ∧
      directory.text.toList =
        (if directory.isAbsolute then ['/'] else []) ++ (relative ++ slashes) ∧
      (directory.isAbsolute = false → relative ≠ []) ∧
      directorySegments directory =
        if relative = [] then [] else (Text.splitOn '/' relative).map String.ofList := by
  have segmentsOf : ∀ text : List Char,
      (if text.isEmpty = true then [] else (Text.splitOn '/' text).map String.ofList) =
        if text = [] then [] else (Text.splitOn '/' text).map String.ofList := by
    intro text
    cases text <;> rfl
  rcases exists_slashes directory.text.toList with ⟨slashes, only, parts⟩
  unfold directorySegments
  dsimp only
  rw [segmentsOf]
  generalize (directory.text.toList.reverse.dropWhile (· == '/')).reverse = trimmed at parts ⊢
  by_cases absolute : directory.isAbsolute = true
  · rw [if_pos absolute, if_pos absolute]
    rcases isAbsolute_iff.mp absolute with ⟨rest, begins⟩
    rw [begins] at parts ⊢
    cases trimmed with
    | nil =>
        refine ⟨[], rest, ?_, rfl, fun relative => absurd absolute (by simp [relative]), rfl⟩
        intro c member
        apply only
        rw [List.nil_append] at parts
        rw [← parts]
        exact List.mem_cons_of_mem _ member
    | cons c later =>
        rw [List.cons_append] at parts
        obtain ⟨rfl, rfl⟩ := List.cons.inj parts
        exact ⟨later, slashes, only, rfl, fun relative => absurd absolute (by simp [relative]),
          rfl⟩
  · rw [if_neg absolute, if_neg absolute]
    refine ⟨trimmed, slashes, only, parts, fun _ => ?_, rfl⟩
    rintro rfl
    rw [List.nil_append] at parts
    apply absolute
    rw [isAbsolute_iff]
    cases slashes with
    | nil => exact absurd (String.toList_eq_nil_iff.mp parts) given
    | cons c rest =>
        obtain rfl := only c List.mem_cons_self
        exact ⟨rest, parts⟩

theorem segments_eq (given : directory.text ≠ "") :
    ∃ count, FileTree.segments directory =
      (if directory.isAbsolute then [""] else []) ++
        (directorySegments directory ++ List.replicate count "") := by
  rcases exists_spelling given with ⟨relative, slashes, only, text, nonempty, spelled⟩
  have cut : Text.splitOn '/' (relative ++ slashes) =
      Text.splitOn '/' relative ++ List.replicate slashes.length [] :=
    Text.splitOn_append_separators only relative
  have behind : ∃ count, (Text.splitOn '/' (relative ++ slashes)).map String.ofList =
      (if relative = [] then [""] else []) ++
        (directorySegments directory ++ List.replicate count "") := by
    refine ⟨slashes.length, ?_⟩
    rw [cut, spelled, List.map_append, List.map_replicate]
    by_cases nothing : relative = []
    · rw [if_pos nothing, if_pos nothing, nothing]
      rfl
    · rw [if_neg nothing, if_neg nothing]
      rfl
  rcases behind with ⟨count, pieces⟩
  unfold FileTree.segments
  rw [text]
  by_cases absolute : directory.isAbsolute = true
  · rw [if_pos absolute, if_pos absolute, List.singleton_append, Text.splitOn, if_pos rfl,
      List.map_cons, pieces]
    by_cases nothing : relative = []
    · rw [if_pos nothing, spelled, if_pos nothing]
      exact ⟨count + 1, rfl⟩
    · rw [if_neg nothing]
      exact ⟨count, rfl⟩
  · rw [if_neg absolute, if_neg absolute, List.nil_append, pieces,
      if_neg (nonempty (Bool.eq_false_iff.mpr absolute))]
    exact ⟨count, rfl⟩

def size : List String → Nat
  | [] => 0
  | segment :: rest => segment.utf8ByteSize + 1 + size rest

theorem size_splitOn (text : List Char) :
    size ((Text.splitOn '/' text).map String.ofList) = (String.ofList text).utf8ByteSize + 1 := by
  induction text with
  | nil => rfl
  | cons c rest inductionHypothesis =>
      have one : String.ofList (c :: rest) = String.ofList [c] ++ String.ofList rest := by
        rw [← String.ofList_append, List.singleton_append]
      rw [one, String.utf8ByteSize_append]
      unfold Text.splitOn
      split
      next slash =>
        have byte : (String.ofList [c]).utf8ByteSize = 1 := by
          rw [slash]
          rfl
        have empty : (String.ofList []).utf8ByteSize = 0 := rfl
        rw [List.map_cons, size, byte, empty, Nat.add_assoc 1, ← inductionHypothesis]
      next =>
        cases pieces : Text.splitOn '/' rest with
        | nil => exact absurd pieces (Text.splitOn_ne_nil _ _)
        | cons first others =>
            have longer :
                String.ofList (c :: first) = String.ofList [c] ++ String.ofList first := by
              rw [← String.ofList_append, List.singleton_append]
            rw [pieces, List.map_cons, size] at inductionHypothesis
            rw [List.map_cons, size, longer, String.utf8ByteSize_append]
            omega

theorem noNul_iff (given : directory.text ≠ "") :
    '\x00' ∉ directory.text.toList ↔ ∀ s ∈ directorySegments directory, '\x00' ∉ s.toList := by
  rcases exists_spelling given with ⟨relative, slashes, only, text, -, spelled⟩
  have root : '\x00' ∉ (if directory.isAbsolute = true then ['/'] else []) := by
    split <;> decide
  have noSlashes : '\x00' ∉ slashes := by
    intro member
    exact absurd (only _ member) (by decide)
  have inText : '\x00' ∈ directory.text.toList ↔ '\x00' ∈ relative := by
    rw [text, List.mem_append, or_iff_right root, List.mem_append, or_iff_left noSlashes]
  have other : '\x00' ≠ '/' := by decide
  rw [inText, spelled]
  by_cases nothing : relative = []
  · rw [if_pos nothing, nothing]
    exact iff_of_true List.not_mem_nil nofun
  · rw [if_neg nothing, Text.mem_iff_exists_mem_splitOn other, List.forall_mem_map]
    simp only [String.toList_ofList, not_exists, not_and]

/-- The directory and the slash in front of it are as long as its segments. -/
theorem size_directorySegments (given : directory.text ≠ "") :
    (if directory.isAbsolute then 1 else 0) + size (directorySegments directory) ≤
      directory.text.utf8ByteSize + 1 := by
  rcases exists_spelling given with ⟨relative, slashes, only, text, nonempty, spelled⟩
  have whole := congrArg (fun text => (String.ofList text).utf8ByteSize) text
  simp only [String.ofList_toList, String.ofList_append, String.utf8ByteSize_append] at whole
  have root : (String.ofList (if directory.isAbsolute = true then ['/'] else [])).utf8ByteSize =
      if directory.isAbsolute then 1 else 0 := by
    split <;> rfl
  rw [root] at whole
  rw [spelled]
  by_cases nothing : relative = []
  · rw [if_pos nothing, size]
    omega
  · rw [if_neg nothing, size_splitOn]
    omega

end YamlTypes.Discovery
