import YamlTypes.Proofs.Discovery.Places
import YamlTypes.Proofs.Discovery.Spelling
import YamlTypes.Proofs.Workspace.Following

/-!
When a search reaches its directory.

A segment further, a path leads one step further. So a path that was reached
leads where the segments of the directory lead, and what the search asks of every
segment holds wherever the directory can be followed: everything on the way to it
is a directory. Only spellings that leave nothing behind the points at the start,
or hide a pattern behind a point, are not reached.
-/

set_option autoImplicit false

namespace YamlTypes.Discovery

open YamlTypes.Path

variable {w : Workspace} {directory at_ reached : Path} {segment : String} {segments : List String}

/-- A path on the way to the directory: a point is all of it. -/
structure OnTheWay (at_ : Path) : Prop where
  given : at_.text ≠ ""
  here : .here ∈ at_.components → at_ = ⟨"."⟩

namespace OnTheWay

theorem plain (way : OnTheWay at_) : Plain at_ := by
  intro point
  rw [way.here point]
  decide

theorem of_isHere (way : OnTheWay at_) (here : isHere at_ = true) : at_ = ⟨"."⟩ := by
  apply way.here
  rw [beq_iff_eq.mp here]
  exact List.mem_cons_self

theorem child (way : OnTheWay at_) (noSlash : '/' ∉ segment.toList)
    (nonempty : (child at_ segment).text ≠ "") : OnTheWay (child at_ segment) where
  given := nonempty
  here := fun point => (here_mem_child way.plain way.given noSlash point).1

end OnTheWay

def lead (at_ : Path) : String :=
  if isHere at_ then ""
  else if at_.text.toList.getLast? = some '/' then at_.text
  else at_.text ++ "/"

theorem text_child (given : at_.text ≠ "") (noSlash : '/' ∉ segment.toList) :
    (child at_ segment).text = lead at_ ++ segment := by
  unfold child lead
  by_cases here : isHere at_ = true
  · rw [if_pos here, if_pos here, String.empty_append]
  · rw [if_neg here, if_neg here, join, isAbsolute_segment noSlash, if_neg Bool.false_ne_true,
      if_neg given]
    split <;> rfl

theorem eq_point_of_lead (way : OnTheWay at_) (nothing : lead at_ = "") : at_ = ⟨"."⟩ := by
  apply way.of_isHere
  by_contra elsewhere
  rw [lead, if_neg elsewhere] at nothing
  split at nothing
  next => exact way.given nothing
  next => exact way.given (String.append_eq_empty_iff.mp nothing).1

/-- Only a point behind points is a point again. -/
theorem eq_point_of_child (way : OnTheWay at_) (noSlash : '/' ∉ segment.toList)
    (point : child at_ segment = ⟨"."⟩) : at_ = ⟨"."⟩ ∧ segment = "." := by
  have pointed : .here ∈ (child at_ segment).components := by
    rw [point]
    decide
  obtain rfl := (here_mem_child way.plain way.given noSlash pointed).2
  have text := text_child way.given noSlash
  rw [point] at text
  have nothing : "" = lead at_ := (String.append_left_inj ".").mp text
  exact ⟨eq_point_of_lead way nothing.symm, rfl⟩

theorem segments_segment (noSlash : '/' ∉ segment.toList) :
    FileTree.segments ⟨segment⟩ = [segment] := by
  rw [FileTree.segments, Text.splitOn_of_not_mem noSlash, List.map_singleton,
    String.ofList_toList]

theorem follow_child (way : OnTheWay at_) (noSlash : '/' ∉ segment.toList) :
    w.follow (child at_ segment) =
      (w.follow at_).bind fun here => w.tree.step here segment := by
  unfold child
  by_cases here : isHere at_ = true
  · obtain rfl := way.of_isHere here
    have point : FileTree.segments ⟨"."⟩ = ["."] := by decide
    rw [if_pos here, Workspace.follow, Workspace.follow, segments_segment noSlash, point,
      FileTree.walk_singleton, FileTree.walk_singleton, Workspace.origin, Workspace.origin,
      isAbsolute_segment noSlash]
    exact (FileTree.step_bind_step (.inr rfl) segment).symm
  · have relative := isAbsolute_segment noSlash
    have origin : w.origin (at_.join ⟨segment⟩) = w.origin at_ := by
      rw [Workspace.origin, Workspace.origin, isAbsolute_join way.given relative]
    rw [if_neg here, Workspace.follow, Workspace.follow, origin, FileTree.segments,
      FileTree.segments, join, relative, if_neg Bool.false_ne_true, if_neg way.given]
    split
    next slash =>
      -- The segment stands in the place of the empty one behind the slash.
      rcases List.getLast?_eq_some_iff.mp slash with ⟨front, whole⟩
      rw [String.toList_append, whole, List.append_assoc, List.singleton_append,
        Text.splitOn_append, Text.splitOn_append, Text.splitOn_of_not_mem noSlash,
        List.map_append, List.map_append, FileTree.walk_append, FileTree.walk_append]
      cases w.tree.walk (w.origin at_) ((Text.splitOn '/' front).map String.ofList) with
      | error fault => rfl
      | ok middle =>
          rw [List.map_singleton, String.ofList_toList]
          change w.tree.walk middle [segment] =
            (w.tree.walk middle [""]).bind fun here => w.tree.step here segment
          rw [FileTree.walk_singleton, FileTree.walk_singleton]
          exact (FileTree.step_bind_step (.inl rfl) segment).symm
    next =>
      rw [String.append_assoc, String.toList_append, String.toList_append]
      change w.tree.walk _
        ((Text.splitOn '/' (at_.text.toList ++ '/' :: segment.toList)).map String.ofList) = _
      rw [Text.splitOn_append, Text.splitOn_of_not_mem noSlash, List.map_append,
        FileTree.walk_append, List.map_singleton, String.ofList_toList]
      congr 1
      funext middle
      exact FileTree.walk_singleton _ _ _

theorem follow_child_bind (way : OnTheWay at_) (noSlash : '/' ∉ segment.toList)
    (rest : List String) :
    ((w.follow (child at_ segment)).bind fun here => w.tree.walk here rest) =
      (w.follow at_).bind fun here => w.tree.walk here (segment :: rest) := by
  rw [follow_child way noSlash]
  cases w.follow at_ with
  | error fault => rfl
  | ok here => exact (FileTree.walk_cons _ _ _ _).symm

theorem noNul_of_advance? {next : Path} (advanced : advance? w at_ segment = some next) :
    '\x00' ∉ segment.toList := by
  rcases advance?_cases advanced with ⟨rfl, points, -⟩
  rcases points with rfl | rfl | found
  · decide
  · decide
  · cases located : w.locate (child at_ segment) with
    | error fault =>
        rw [Workspace.entry?, located] at found
        cases found
    | ok location =>
        have usable := (Workspace.locate_eq_ok_iff.mp located).1
        rcases exists_text_child at_ segment with ⟨front, ends⟩
        rw [FileTree.badPath?_eq_none_iff, ends, String.toList_append, List.mem_append, not_or]
          at usable
        exact usable.1.2

theorem forall_of_foldlM {property : String → Prop}
    (each : ∀ (at_ next : Path) (segment : String),
      advance? w at_ segment = some next → property segment)
    (advanced : segments.foldlM (advance? w) at_ = some reached) : ∀ s ∈ segments, property s := by
  induction segments generalizing at_ with
  | nil => exact nofun
  | cons segment rest inductionHypothesis =>
      rw [List.foldlM_cons, Option.bind_eq_bind, Option.bind_eq_some_iff] at advanced
      rcases advanced with ⟨next, one, advanced⟩
      exact List.forall_mem_cons.mpr ⟨each at_ next segment one, inductionHypothesis advanced⟩

/-- A path that was reached leads on from where it began, as the segments say. -/
theorem follow_of_foldlM (way : OnTheWay at_) (noSlash : ∀ s ∈ segments, '/' ∉ s.toList)
    (advanced : segments.foldlM (advance? w) at_ = some reached) :
    OnTheWay reached ∧ reached = segments.foldl child at_ ∧
      w.follow reached = (w.follow at_).bind fun here => w.tree.walk here segments := by
  induction segments generalizing at_ with
  | nil =>
      obtain rfl : at_ = reached := Option.some.inj advanced
      refine ⟨way, rfl, ?_⟩
      cases w.follow at_ <;> rfl
  | cons segment rest inductionHypothesis =>
      have bare := noSlash segment List.mem_cons_self
      rw [List.foldlM_cons, Option.bind_eq_bind, Option.bind_eq_some_iff] at advanced
      rcases advanced with ⟨next, one, advanced⟩
      rcases of_advance? one with ⟨rfl, nonempty⟩
      rcases inductionHypothesis (way.child bare nonempty)
        (fun s member => noSlash s (List.mem_cons_of_mem _ member)) advanced with
        ⟨there, spelled, followed⟩
      exact ⟨there, spelled, followed.trans (follow_child_bind way bare rest)⟩

/-- Names behind a path lead on from it. -/
theorem follow_foldl {names : List String} (way : OnTheWay at_)
    (ordinary : ∀ name ∈ names, Ordinary name) :
    w.follow (names.foldl child at_) =
      (w.follow at_).bind fun here => w.tree.walk here names := by
  induction names generalizing at_ with
  | nil =>
      rw [List.foldl_nil]
      cases w.follow at_ <;> rfl
  | cons name rest inductionHypothesis =>
      have first := ordinary name List.mem_cons_self
      have nonempty : (child at_ name).text ≠ "" := by
        rcases exists_text_child at_ name with ⟨front, ends⟩
        rw [ends, ne_eq, String.append_eq_empty_iff]
        exact fun empty => first.nonempty empty.2
      rw [List.foldl_cons, inductionHypothesis (way.child first.noSlash nonempty)
        fun n member => ordinary n (List.mem_cons_of_mem _ member),
        follow_child_bind way first.noSlash]

/-- Something stands behind the points at the start, if there are other segments at all. -/
def Led : List String → Prop
  | [] => True
  | segment :: rest => if segment = "." then Led rest else segment ≠ ""

instance decidableLed : (segments : List String) → Decidable (Led segments)
  | [] => inferInstanceAs (Decidable True)
  | segment :: rest =>
    have := decidableLed rest
    inferInstanceAs (Decidable (if segment = "." then Led rest else segment ≠ ""))

structure Fits (at_ : Path) (segments : List String) : Prop where
  before : '\x00' ∉ (lead at_).toList
  noNul : ∀ s ∈ segments, '\x00' ∉ s.toList
  short : (lead at_).utf8ByteSize + size segments ≤ FileTree.pathLimit

theorem Fits.noNul_child (way : OnTheWay at_) (noSlash : '/' ∉ segment.toList)
    (fits : Fits at_ (segment :: segments)) :
    '\x00' ∉ (Discovery.child at_ segment).text.toList := by
  rw [text_child way.given noSlash, String.toList_append, List.mem_append, not_or]
  exact ⟨fits.before, fits.noNul segment List.mem_cons_self⟩

theorem badPath?_child (way : OnTheWay at_) (noSlash : '/' ∉ segment.toList)
    (nonempty : (child at_ segment).text ≠ "") (fits : Fits at_ (segment :: segments)) :
    FileTree.badPath? (child at_ segment) = none := by
  rw [FileTree.badPath?_eq_none_iff]
  refine ⟨fits.noNul_child way noSlash, nonempty, ?_⟩
  have short := fits.short
  rw [size] at short
  rw [text_child way.given noSlash, String.utf8ByteSize_append]
  omega

theorem Fits.child (way : OnTheWay at_) (noSlash : '/' ∉ segment.toList)
    (fits : Fits at_ (segment :: segments)) : Fits (Discovery.child at_ segment) segments := by
  have short := fits.short
  have text := text_child way.given noSlash
  have slash : "/".utf8ByteSize = 1 := rfl
  have noNul := fits.noNul_child way noSlash
  have bytes :
      (Discovery.child at_ segment).text.utf8ByteSize + 1 + size segments ≤ FileTree.pathLimit := by
    rw [size] at short
    rw [text, String.utf8ByteSize_append]
    omega
  refine ⟨?_, fun s member => fits.noNul s (List.mem_cons_of_mem _ member), ?_⟩
  · unfold lead
    split
    next => decide
    next =>
      split
      next => exact noNul
      next =>
        rw [String.toList_append, List.mem_append, not_or]
        exact ⟨noNul, by decide⟩
  · unfold lead
    split
    next =>
      rw [String.utf8ByteSize_empty]
      omega
    next =>
      split
      next => omega
      next =>
        rw [String.utf8ByteSize_append, slash]
        exact bytes

theorem advance?_eq_some {here there : Location} {next : Path} (spelled : next = child at_ segment)
    (clear : startsWithPoint segment = true → hasWildcard segment = false)
    (located : w.locate at_ = .ok here) (inside : w.tree.get? here = some .directory)
    (arrived : w.locate next = .ok there) (further : w.tree.get? there = some .directory) :
    advance? w at_ segment = some next := by
  have isDirectory : w.isDirectory at_ = true := by
    rw [Workspace.isDirectory, Workspace.entry?, located]
    exact beq_iff_eq.mpr inside
  have found : (w.entry? next).isSome = true := by
    rw [Workspace.entry?, arrived]
    exact Option.isSome_iff_exists.mpr ⟨_, further⟩
  unfold advance?
  dsimp only
  rw [← spelled]
  by_cases wildcard : hasWildcard segment = true
  · have noPoint : startsWithPoint segment = false := by
      rw [Bool.eq_false_iff]
      intro point
      rw [clear point] at wildcard
      cases wildcard
    rw [if_pos wildcard, if_pos ⟨isDirectory, by rw [noPoint]; rfl, found⟩]
  · rw [if_neg wildcard]
    by_cases points : segment = "." ∨ segment = ".."
    · rw [if_pos points, if_pos isDirectory]
    · rw [if_neg points, if_pos found]

theorem exists_foldlM {here there : Location} (way : OnTheWay at_)
    (noSlash : ∀ s ∈ segments, '/' ∉ s.toList)
    (clear : ∀ s ∈ segments, startsWithPoint s = true → hasWildcard s = false)
    (led : at_ = ⟨"."⟩ → Led segments) (fits : Fits at_ segments)
    (located : w.locate at_ = .ok here) (walked : w.tree.walk here segments = .ok there)
    (isDirectory : w.tree.get? there = some .directory) :
    ∃ reached, segments.foldlM (advance? w) at_ = some reached ∧ w.locate reached = .ok there := by
  induction segments generalizing at_ here with
  | nil =>
      obtain rfl := Except.ok.inj walked
      exact ⟨at_, rfl, located⟩
  | cons segment rest inductionHypothesis =>
      have bare := noSlash segment List.mem_cons_self
      have nonempty : (child at_ segment).text ≠ "" := by
        rw [text_child way.given bare]
        intro empty
        rcases String.append_eq_empty_iff.mp empty with ⟨nothing, rfl⟩
        exact led (eq_point_of_lead way nothing) rfl
      have ledRest : child at_ segment = ⟨"."⟩ → Led rest := by
        intro point
        rcases eq_point_of_child way bare point with ⟨before, rfl⟩
        have ledAll := led before
        rwa [Led, if_pos rfl] at ledAll
      rw [FileTree.walk_cons] at walked
      cases stepped : w.tree.step here segment with
      | error fault =>
          rw [stepped] at walked
          cases walked
      | ok middle =>
          rw [stepped] at walked
          have arrived : w.locate (child at_ segment) = .ok middle := by
            rw [Workspace.locate_eq_ok_iff, follow_child way bare,
              (Workspace.locate_eq_ok_iff.mp located).2]
            exact ⟨badPath?_child way bare nonempty fits, stepped⟩
          rcases inductionHypothesis (way.child bare nonempty)
            (fun s member => noSlash s (List.mem_cons_of_mem _ member))
            (fun s member => clear s (List.mem_cons_of_mem _ member)) ledRest
            (fits.child way bare) arrived walked with ⟨reached, advanced, final⟩
          refine ⟨reached, ?_, final⟩
          rw [List.foldlM_cons, advance?_eq_some rfl (clear segment List.mem_cons_self) located
            (FileTree.directory_of_step stepped) arrived
            (FileTree.directory_of_walk walked isDirectory)]
          exact advanced

def origin (directory : Path) : Path := if directory.isAbsolute then ⟨"/"⟩ else ⟨"."⟩

theorem origin_onTheWay (directory : Path) : OnTheWay (origin directory) := by
  unfold origin
  split
  next => exact ⟨by decide, fun point => absurd point (by decide)⟩
  next => exact ⟨by decide, fun _ => rfl⟩

theorem follow_origin {location : Location}
    (followed : w.follow (origin directory) = .ok location) : location = w.origin directory := by
  unfold origin at followed
  unfold Workspace.origin
  split at followed
  next absolute =>
    have segmentsOf : FileTree.segments ⟨"/"⟩ = ["", ""] := by decide
    have root : w.origin ⟨"/"⟩ = [] := rfl
    rw [if_pos absolute]
    rw [Workspace.follow, root, segmentsOf] at followed
    have stays : w.tree.walk [] (List.replicate 2 "") = .ok location := followed
    exact (FileTree.eq_of_walk_replicate stays).symm
  next relative =>
    have segmentsOf : FileTree.segments ⟨"."⟩ = ["."] := by decide
    have here : w.origin ⟨"."⟩ = w.directory := rfl
    rw [if_neg relative]
    rw [Workspace.follow, here, segmentsOf, FileTree.walk_singleton] at followed
    rw [FileTree.step_still (.inr rfl) (FileTree.directory_of_step followed)] at followed
    exact (Except.ok.inj followed).symm

theorem locate_origin (found : w.tree.get? (w.origin directory) = some .directory) :
    w.locate (origin directory) = .ok (w.origin directory) := by
  unfold origin
  unfold Workspace.origin at found ⊢
  rw [Workspace.locate_eq_ok_iff]
  split
  next absolute =>
    have segmentsOf : FileTree.segments ⟨"/"⟩ = ["", ""] := by decide
    have root : w.origin ⟨"/"⟩ = [] := rfl
    rw [if_pos absolute] at found
    refine ⟨by decide, ?_⟩
    rw [Workspace.follow, root, segmentsOf]
    exact FileTree.walk_replicate 2 found
  next relative =>
    have segmentsOf : FileTree.segments ⟨"."⟩ = ["."] := by decide
    have here : w.origin ⟨"."⟩ = w.directory := rfl
    rw [if_neg relative] at found
    refine ⟨by decide, ?_⟩
    rw [Workspace.follow, here, segmentsOf, FileTree.walk_singleton,
      FileTree.step_still (.inr rfl) found]

theorem follow_eq_ok_iff (given : directory.text ≠ "") {location : Location}
    (isDirectory : w.tree.get? location = some .directory) :
    w.follow directory = .ok location ↔
      w.tree.walk (w.origin directory) (directorySegments directory) = .ok location := by
  rcases segments_eq given with ⟨count, pieces⟩
  have rooted : ∀ segments : List String, w.tree.walk (w.origin directory)
      ((if directory.isAbsolute then [""] else []) ++ segments) =
        w.tree.walk (w.origin directory) segments := by
    intro segments
    by_cases absolute : directory.isAbsolute = true
    · have root : w.tree.get? [] = some .directory := rfl
      rw [Workspace.origin, if_pos absolute, if_pos absolute, List.singleton_append,
        FileTree.walk_cons, FileTree.step_still (.inl rfl) root, Except.bind]
    · rw [if_neg absolute, List.nil_append]
  rw [Workspace.follow, pieces, rooted, FileTree.walk_append]
  cases w.tree.walk (w.origin directory) (directorySegments directory) with
  | error fault => exact Iff.rfl
  | ok middle =>
      constructor
      · intro walked
        rw [FileTree.eq_of_walk_replicate walked]
      · intro same
        obtain rfl := Except.ok.inj same
        exact FileTree.walk_replicate count isDirectory

theorem locate_of_reach? (given : directory.text ≠ "")
    (short : directory.text.utf8ByteSize < FileTree.pathLimit)
    (found : reach? w directory = some reached) {location : Location}
    (located : w.locate reached = .ok location)
    (isDirectory : w.tree.get? location = some .directory) :
    OnTheWay reached ∧ reached = (directorySegments directory).foldl child (origin directory) ∧
      w.locate directory = .ok location := by
  rcases follow_of_foldlM (origin_onTheWay directory) (directorySegments_noSlash directory) found
    with ⟨way, spelled, followed⟩
  refine ⟨way, spelled, Workspace.locate_eq_ok_iff.mpr ⟨?_, ?_⟩⟩
  · rw [FileTree.badPath?_eq_none_iff, noNul_iff given]
    exact ⟨forall_of_foldlM (fun _ _ _ advanced => noNul_of_advance? advanced) found, given, short⟩
  · rw [follow_eq_ok_iff given isDirectory]
    rw [(Workspace.locate_eq_ok_iff.mp located).2] at followed
    cases first : w.follow (origin directory) with
    | error fault =>
        rw [first] at followed
        cases followed
    | ok here =>
        rw [first] at followed
        obtain rfl := follow_origin first
        exact followed.symm

/-- The spellings under which a search reaches a directory that is there. -/
structure Reaches (directory : Path) : Prop where
  clear : ∀ s ∈ directorySegments directory, startsWithPoint s = true → hasWildcard s = false
  led : .here ∈ directory.components → Led (directorySegments directory)

theorem led_of_foldlM (advanced : segments.foldlM (advance? w) ⟨"."⟩ = some reached) :
    Led segments := by
  induction segments with
  | nil => exact trivial
  | cons segment rest inductionHypothesis =>
      rw [List.foldlM_cons, Option.bind_eq_bind, Option.bind_eq_some_iff] at advanced
      rcases advanced with ⟨next, one, advanced⟩
      rcases of_advance? one with ⟨rfl, nonempty⟩
      unfold Led
      split
      next point =>
        rw [point] at advanced
        exact inductionHypothesis advanced
      next =>
        rintro rfl
        exact nonempty rfl

theorem reaches_of_reach? (found : reach? w directory = some reached) : Reaches directory where
  clear := by
    intro s member point
    have literal : ∀ s ∈ directorySegments directory, hasWildcard s = true →
        startsWithPoint s = false :=
      forall_of_foldlM (fun _ _ _ advanced => (advance?_cases advanced).2.2) found
    by_contra wildcard
    rw [literal s member (by simpa using wildcard)] at point
    cases point
  led := by
    intro point
    unfold reach? at found
    rw [isAbsolute_of_here_mem point, if_neg Bool.false_ne_true] at found
    exact led_of_foldlM found

theorem Reaches.ledAll (reaches : Reaches directory) (given : directory.text ≠ "")
    (relative : directory.isAbsolute = false) : Led (directorySegments directory) := by
  rcases exists_spelling given with ⟨text, slashes, only, whole, nonempty, spelled⟩
  by_cases point : .here ∈ directory.components
  · exact reaches.led point
  · rw [here_mem_components_iff, whole, relative, if_neg Bool.false_ne_true, List.nil_append,
      Text.splitOn_append_separators only, List.head?_append_of_ne_nil _ (Text.splitOn_ne_nil _ _)]
      at point
    rw [spelled, if_neg (nonempty relative)]
    cases text with
    | nil => exact absurd rfl (nonempty relative)
    | cons c rest =>
        have noSlash : c ≠ '/' := by
          rintro rfl
          rw [relative, if_neg Bool.false_ne_true, List.nil_append, List.cons_append] at whole
          rw [isAbsolute_iff.mpr ⟨_, whole⟩] at relative
          cases relative
        unfold Text.splitOn at point ⊢
        rw [if_neg noSlash] at point ⊢
        cases pieces : Text.splitOn '/' rest with
        | nil => exact absurd pieces (Text.splitOn_ne_nil _ _)
        | cons first others =>
            rw [pieces] at point
            have notHere : String.ofList (c :: first) ≠ "." := by
              intro same
              apply point
              have chars := congrArg String.toList same
              rw [String.toList_ofList] at chars
              exact congrArg some chars
            simp only [List.map_cons]
            rw [Led, if_neg notHere]
            intro empty
            have chars := congrArg String.toList empty
            rw [String.toList_ofList] at chars
            cases chars

theorem Reaches.reach? (reaches : Reaches directory) (given : directory.text ≠ "")
    (short : directory.text.utf8ByteSize < FileTree.pathLimit) {location : Location}
    (located : w.locate directory = .ok location)
    (isDirectory : w.tree.get? location = some .directory) :
    ∃ reached, reach? w directory = some reached ∧ w.locate reached = .ok location := by
  rcases Workspace.locate_eq_ok_iff.mp located with ⟨usable, followed⟩
  rw [follow_eq_ok_iff given isDirectory] at followed
  have noNul := (noNul_iff given).mp (FileTree.badPath?_eq_none_iff.mp usable).1
  have bytes := size_directorySegments given
  apply exists_foldlM (origin_onTheWay directory) (directorySegments_noSlash directory)
    reaches.clear _ _ (locate_origin (FileTree.directory_of_walk followed isDirectory)) followed
    isDirectory
  · intro point
    apply reaches.ledAll given
    rw [Bool.eq_false_iff]
    intro absolute
    rw [origin, if_pos absolute] at point
    exact absurd (Path.mk.inj point) (by decide)
  · have leads : lead (origin directory) = if directory.isAbsolute then "/" else "" := by
      unfold origin
      split <;> decide
    refine ⟨?_, noNul, ?_⟩
    · rw [leads]
      split <;> decide
    · rw [leads]
      split at bytes
      next absolute =>
        have slash : "/".utf8ByteSize = 1 := rfl
        rw [if_pos absolute, slash]
        omega
      next relative =>
        rw [if_neg relative, String.utf8ByteSize_empty]
        omega

end YamlTypes.Discovery
