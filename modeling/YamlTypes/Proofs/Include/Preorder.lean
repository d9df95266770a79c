import YamlTypes.Proofs.Include.Derivation
import YamlTypes.Proofs.Include.Position

/-!
The order of loads.

The directives of a text form a tree with those of the documents that they
name. A run goes through it in depth-first preorder: each document comes
directly before those that it includes, and the directives of one text come in
their order. It loads them one after the other until one is faulty, and loads
nothing beyond that one.
-/

set_option autoImplicit false

namespace YamlTypes.Include

variable {σ : Type}

/-- A directive where it stands: the documents being expanded around it, outermost first, and the
one that it is part of. -/
structure Site where
  chain : List Path
  document : List Char
  directive : Directive
  deriving DecidableEq, Repr

/-- The directives of a text from one of them on. An opened one has the text that was loaded for it
and the tree of that text below it. -/
inductive IncludeTree where
  | done
  | closed (site : Site) (later : IncludeTree)
  | opened (site : Site) (text : List Char) (below later : IncludeTree)

namespace IncludeTree

def preorder : IncludeTree → List (Site × Option (List Char))
  | done => []
  | closed site later => (site, none) :: later.preorder
  | opened site text below later => (site, some text) :: (below.preorder ++ later.preorder)

def unseen (chain : List Path) (document : List Char) : List Directive → IncludeTree
  | [] => done
  | d :: ds => closed ⟨chain, document, d⟩ (unseen chain document ds)

theorem unseen_preorder (chain : List Path) (document : List Char) (ds : List Directive) :
    (unseen chain document ds).preorder =
      (ds.map (Site.mk chain document)).map (·, none) := by
  induction ds with
  | nil => rfl
  | cons d ds inductionHypothesis =>
      rw [unseen, preorder, inductionHypothesis, List.map_cons, List.map_cons]

end IncludeTree

/-- The tree has a document's directives in their order, and below each opened one those of its
text, whatever that is. -/
inductive Covers (base : Path) :
    List Path → List Char → List Directive → IncludeTree → Prop
  | done {chain document} : Covers base chain document [] .done
  | closed {chain document d ds later} :
      Covers base chain document ds later →
      Covers base chain document (d :: ds) (.closed ⟨chain, document, d⟩ later)
  | opened {chain document d ds text below later} :
      Covers base (chain ++ [target base d.operand]) text (directives text) below →
      Covers base chain document ds later →
      Covers base chain document (d :: ds) (.opened ⟨chain, document, d⟩ text below later)

theorem Covers.unseen (base : Path) (chain : List Path) (document : List Char)
    (ds : List Directive) : Covers base chain document ds (.unseen chain document ds) := by
  induction ds with
  | nil => exact .done
  | cons d ds inductionHypothesis => exact .closed inductionHypothesis

theorem Covers.mem_directives {base : Path} {chain : List Path} {document : List Char}
    {ds : List Directive} {tree : IncludeTree} (covers : Covers base chain document ds tree)
    (part : ∀ d ∈ ds, d ∈ directives document) :
    ∀ seen ∈ tree.preorder, seen.1.directive ∈ directives seen.1.document := by
  induction covers with
  | done => simp [IncludeTree.preorder]
  | closed _ inductionHypothesis =>
      intro seen member
      rcases List.mem_cons.mp member with rfl | later
      · exact part _ List.mem_cons_self
      · exact inductionHypothesis (fun d more => part d (List.mem_cons_of_mem _ more)) seen later
  | opened _ _ belowHypothesis laterHypothesis =>
      intro seen member
      rcases List.mem_cons.mp member with rfl | further
      · exact part _ List.mem_cons_self
      · rcases List.mem_append.mp further with below | later
        · exact belowHypothesis (fun _ inText => inText) seen below
        · exact laterHypothesis (fun d more => part d (List.mem_cons_of_mem _ more)) seen later

section
variable (loader : Loader σ) (base : Path) (settings : Settings)

def Site.path (site : Site) : Path := target base site.directive.operand

inductive Follows : σ → List (Site × List Char) → σ → Prop
  | nil {state} : Follows state [] state
  | cons {site text visits state next last} :
      Opens loader base settings site.chain site.directive state text next →
      Follows next visits last →
      Follows state ((site, text) :: visits) last

/-- What is wrong with a directive, the load that it takes to see that, and the loader's state
after it. -/
inductive Faulty (site : Site) (state : σ) : Failure → List Path → σ → Prop
  | missing :
      site.directive.operand = [] →
      Faulty site state (.missingOperand site.directive.position.line site.directive.text) [] state
  | reentered :
      site.directive.operand ≠ [] → settings.cycles = .detect → site.path base ∈ site.chain →
      Faulty site state (.cycle (site.chain ++ [site.path base])) [] state
  | unreadable {next fault} :
      site.directive.operand ≠ [] → (settings.cycles = .detect → site.path base ∉ site.chain) →
      loader.load (site.path base) settings.encoding state = (next, .error fault) →
      Faulty site state (.unreadable (site.path base) fault) [site.path base] next

def openedVisits (visits : List (Site × List Char)) : List (Site × Option (List Char)) :=
  visits.map fun visit => (visit.1, some visit.2)

def visitedPaths (visits : List (Site × List Char)) : List Path :=
  visits.map fun visit => visit.1.path base

structure Completes (tree : IncludeTree) (state : σ) (run : Run σ)
    (visits : List (Site × List Char)) (expansion : Expansion) : Prop where
  result : run.result = .ok expansion
  preorder : tree.preorder = openedVisits visits
  follows : Follows loader base settings state visits run.state
  loads : run.loads = visitedPaths base visits
  referenced : expansion.referenced = run.loads

/-- The directives of the tree have been followed in preorder up to the first faulty one. -/
structure Stops (tree : IncludeTree) (state : σ) (run : Run σ)
    (visits : List (Site × List Char)) (site : Site) (failure : Failure) : Prop where
  result : run.result = .error failure
  preorder : ∃ unseen : List Site,
    tree.preorder = openedVisits visits ++ (site, none) :: unseen.map (·, none)
  follows : ∃ middle loads, Follows loader base settings state visits middle ∧
    Faulty loader base settings site middle failure loads run.state ∧
    run.loads = visitedPaths base visits ++ loads

end

section
variable {loader : Loader σ} {base : Path} {settings : Settings}

theorem Follows.append {state middle last : σ} {visits more : List (Site × List Char)}
    (first : Follows loader base settings state visits middle)
    (second : Follows loader base settings middle more last) :
    Follows loader base settings state (visits ++ more) last := by
  induction first with
  | nil => exact second
  | cons opens _ inductionHypothesis => exact .cons opens (inductionHypothesis second)

theorem Faulty.of_refused {site : Site} {failure : Failure} (state : σ)
    (refused : refusal? base settings.cycles site.chain site.directive = some failure) :
    Faulty loader base settings site state failure [] state := by
  rcases refusal?_eq_some_iff.mp refused with ⟨unnamed, rfl⟩ | ⟨named, detect, reentered, rfl⟩
  · exact .missing unnamed
  · exact .reentered named detect reentered

theorem Completes.included (site : Site) {state next : σ} {text : List Char}
    {below later : IncludeTree} {inner run : Run σ} {visits more : List (Site × List Char)}
    {expansion rest : Expansion}
    (opens : Opens loader base settings site.chain site.directive state text next)
    (first : Completes loader base settings below next inner visits expansion)
    (second : Completes loader base settings later inner.state run more rest) :
    Completes loader base settings (.opened site text below later) state
      (run.after (site.path base :: inner.loads)
        ⟨reindent site.directive.position.column expansion.text,
          site.path base :: expansion.referenced⟩)
      ((site, text) :: (visits ++ more))
      ⟨reindent site.directive.position.column expansion.text ++ rest.text,
        site.path base :: expansion.referenced ++ rest.referenced⟩ where
  result := Run.after_ok second.result _ _
  preorder := by
    simp only [IncludeTree.preorder, first.preorder, second.preorder, openedVisits, List.map_cons,
      List.map_append]
  follows := .cons opens (first.follows.append second.follows)
  loads := by
    simp only [Run.after_loads, first.loads, second.loads, visitedPaths, List.map_cons,
      List.map_append, List.cons_append]
  referenced := by rw [first.referenced, second.referenced, Run.after_loads]

theorem Stops.here {site : Site} {state last : σ} {failure : Failure} {loads : List Path}
    (faulty : Faulty loader base settings site state failure loads last)
    (chain : List Path) (document : List Char) (ds : List Directive) :
    Stops loader base settings (.closed site (.unseen chain document ds)) state
      ⟨last, loads, .error failure⟩ [] site failure where
  result := rfl
  preorder := ⟨ds.map (Site.mk chain document), by
    rw [IncludeTree.preorder, IncludeTree.unseen_preorder]
    rfl⟩
  follows := ⟨state, loads, .nil, faulty, rfl⟩

/-- A fault below a directive ends the run before those after it are seen. -/
theorem Stops.within (site : Site) {fault : Site} {state next : σ} {text : List Char}
    {below : IncludeTree} {inner : Run σ} {visits : List (Site × List Char)} {failure : Failure}
    (opens : Opens loader base settings site.chain site.directive state text next)
    (stops : Stops loader base settings below next inner visits fault failure)
    (chain : List Path) (document : List Char) (ds : List Directive) :
    Stops loader base settings (.opened site text below (.unseen chain document ds)) state
      ⟨inner.state, site.path base :: inner.loads, .error failure⟩
      ((site, text) :: visits) fault failure where
  result := rfl
  preorder := by
    rcases stops.preorder with ⟨unseen, ordered⟩
    refine ⟨unseen ++ ds.map (Site.mk chain document), ?_⟩
    simp only [IncludeTree.preorder, ordered, IncludeTree.unseen_preorder, openedVisits,
      List.map_cons, List.map_append, List.cons_append, List.append_assoc]
  follows := by
    rcases stops.follows with ⟨middle, loads, follows, faulty, loaded⟩
    exact ⟨middle, loads, .cons opens follows, faulty, by rw [loaded]; rfl⟩

/-- A fault after a directive comes after everything below it. -/
theorem Stops.included (site : Site) {fault : Site} {state next : σ} {text : List Char}
    {below later : IncludeTree} {inner run : Run σ} {visits more : List (Site × List Char)}
    {expansion : Expansion} {failure : Failure}
    (opens : Opens loader base settings site.chain site.directive state text next)
    (first : Completes loader base settings below next inner visits expansion)
    (stops : Stops loader base settings later inner.state run more fault failure)
    (here : Expansion) :
    Stops loader base settings (.opened site text below later) state
      (run.after (site.path base :: inner.loads) here)
      ((site, text) :: (visits ++ more)) fault failure where
  result := (Run.after_error_iff _ _ _ _).mpr stops.result
  preorder := by
    rcases stops.preorder with ⟨unseen, ordered⟩
    refine ⟨unseen, ?_⟩
    simp only [IncludeTree.preorder, first.preorder, ordered, openedVisits, List.map_cons,
      List.map_append, List.cons_append, List.append_assoc]
  follows := by
    rcases stops.follows with ⟨middle, loads, follows, faulty, loaded⟩
    refine ⟨middle, loads, .cons opens (first.follows.append follows), faulty, ?_⟩
    simp only [Run.after_loads, first.loads, loaded, visitedPaths, List.map_cons, List.map_append,
      List.cons_append, List.append_assoc]

/-- What a run does with the directives of a tree: it follows all of them, or up to the first
faulty one. -/
def Explores (loader : Loader σ) (base : Path) (settings : Settings) (tree : IncludeTree)
    (state : σ) (run : Run σ) : Prop :=
  (∃ visits expansion, Completes loader base settings tree state run visits expansion) ∨
  ∃ visits site failure, Stops loader base settings tree state run visits site failure

theorem Explores.after_char {tree : IncludeTree} {state : σ} {run : Run σ}
    (explores : Explores loader base settings tree state run) (c : Char) :
    Explores loader base settings tree state (run.after [] ⟨[c], []⟩) := by
  rcases explores with ⟨visits, expansion, completes⟩ | ⟨visits, site, failure, stops⟩
  · exact .inl ⟨visits, _, Run.after_ok completes.result _ _, completes.preorder,
      completes.follows, completes.loads, completes.referenced⟩
  · exact .inr ⟨visits, site, failure, (Run.after_error_iff _ _ _ _).mpr stops.result,
      stops.preorder, stops.follows⟩

theorem Expands.explores {chain : List Path} {ps : List Piece} {state : σ} {run : Run σ}
    (derived : Expands loader base settings chain ps state run) (document : List Char) :
    ∃ tree, Covers base chain document (ps.filterMap Piece.directive?) tree ∧
      Explores loader base settings tree state run := by
  -- Directives that the run does not come to are in the tree as `unseen`.
  induction derived generalizing document with
  | nil => exact ⟨.done, .done, .inl ⟨[], ⟨[], []⟩, rfl, rfl, .nil, rfl, rfl⟩⟩
  | char _ inductionHypothesis =>
      rcases inductionHypothesis document with ⟨tree, covers, explores⟩
      exact ⟨tree, covers, explores.after_char _⟩
  | @refused chain d rest state failure refused =>
      have faulty : Faulty loader base settings ⟨chain, document, d⟩ state failure [] state :=
        .of_refused state refused
      exact ⟨_, .closed (.unseen base chain document _),
        .inr ⟨_, _, _, .here faulty chain document _⟩⟩
  | @unreadable chain d rest state next fault allowed loaded =>
      rcases refusal?_eq_none_iff.mp allowed with ⟨named, fresh⟩
      have faulty : Faulty loader base settings ⟨chain, document, d⟩ state _ _ next :=
        .unreadable named fresh loaded
      exact ⟨_, .closed (.unseen base chain document _),
        .inr ⟨_, _, _, .here faulty chain document _⟩⟩
  | @failed chain d rest state text next inner failure opens _ finished inductionHypothesis =>
      rcases inductionHypothesis text with
        ⟨below, covers, ⟨visits, expansion, completes⟩ | ⟨visits, fault, reported, stops⟩⟩
      · cases finished.symm.trans completes.result
      · cases finished.symm.trans stops.result
        have whole := Stops.within ⟨chain, document, d⟩ opens stops chain document
          (rest.filterMap Piece.directive?)
        exact ⟨_, .opened covers (.unseen base chain document _), .inr ⟨_, _, _, whole⟩⟩
  | @included chain d rest state text next inner expansion run opens _ finished _
      innerHypothesis laterHypothesis =>
      rcases innerHypothesis text with
        ⟨below, covers, ⟨visits, result, completes⟩ | ⟨visits, fault, reported, stops⟩⟩
      · cases finished.symm.trans completes.result
        rcases laterHypothesis document with ⟨later, laterCovers, explored⟩
        refine ⟨.opened ⟨chain, document, d⟩ text below later, .opened covers laterCovers, ?_⟩
        rcases explored with ⟨more, whole, second⟩ | ⟨more, fault, failure, stops⟩
        · exact .inl ⟨_, _, Completes.included ⟨chain, document, d⟩ opens completes second⟩
        · exact .inr ⟨_, _, _, Stops.included ⟨chain, document, d⟩ opens completes stops _⟩
      · cases finished.symm.trans stops.result

theorem Expands.referenced_eq_loads {chain : List Path} {ps : List Piece} {state : σ} {run : Run σ}
    {expansion : Expansion} (derived : Expands loader base settings chain ps state run)
    (succeeded : run.result = .ok expansion) : expansion.referenced = run.loads := by
  rcases derived.explores [] with
    ⟨tree, _, ⟨visits, whole, completes⟩ | ⟨visits, site, failure, stops⟩⟩
  · cases succeeded.symm.trans completes.result
    exact completes.referenced
  · cases succeeded.symm.trans stops.result

theorem Resolves.referenced_eq_loads {directory root : Path} {chain : List Path}
    {text : List Char} {state : σ} {run : Run σ} {expansion : Expansion}
    (resolved : Resolves loader directory root settings chain text state run)
    (succeeded : run.result = .ok expansion) : expansion.referenced = run.loads := by
  cases based : Path.absolute? directory root with
  | none =>
      rw [resolves_iff_of_no_base based] at resolved
      rw [resolved] at succeeded
      cases succeeded
  | some base =>
      rw [resolves_iff_of_base based] at resolved
      exact resolved.referenced_eq_loads succeeded

/-- A run loads the documents of the directives in depth-first preorder, which is the order in which
they are listed. It fails only at the first faulty directive, having loaded those before it and
nothing beyond, or at once if the root names no directory. The line of a directive that names
nothing is counted in the document that it is part of. -/
theorem resolve_follows_preorder {directory root : Path} {text : List Char} {state : σ}
    {run : Run σ} (resolved : Resolves loader directory root settings [] text state run) :
    (root.text = "" → run = ⟨state, [], .error (.unreadable root .emptyPath)⟩) ∧
    (root.text ≠ "" → ∃ base, Path.absolute? directory root = some base ∧
      ∃ tree, Covers base [] text (directives text) tree ∧
        ((∃ visits expansion, Completes loader base settings tree state run visits expansion) ∨
        ∃ visits site failure, Stops loader base settings tree state run visits site failure ∧
          ∀ line directive, failure = .missingOperand line directive →
            directive = site.directive.text ∧
            ∃ before after, site.document = before ++ directive ++ after ∧
              line = before.count '\n' + 1)) := by
  constructor
  · intro rootless
    exact (resolves_iff_of_no_base (by rw [Path.absolute?, if_pos rootless])).mp resolved
  · intro rooted
    have based : Path.absolute? directory root = some (directory.join root).normalize := by
      rw [Path.absolute?, if_neg rooted]
    rw [resolves_iff_of_base based] at resolved
    rcases resolved.explores text with ⟨tree, covers, explored⟩
    refine ⟨_, based, tree, covers, ?_⟩
    rcases explored with completed | ⟨visits, site, failure, stops⟩
    · exact .inl completed
    · refine .inr ⟨visits, site, failure, stops, ?_⟩
      rintro line directive rfl
      have inDocument : site.directive ∈ directives site.document := by
        rcases stops.preorder with ⟨unseen, ordered⟩
        have seen : (site, none) ∈ tree.preorder := by simp [ordered]
        exact covers.mem_directives (fun _ member => member) _ seen
      rcases line_of_mem_directives inDocument with ⟨before, after, split, counted⟩
      rcases stops.follows with ⟨_, _, _, faulty, _⟩
      cases faulty
      exact ⟨rfl, before, after, split, counted⟩

end

/-- A text without directives fails all the same if the root is the empty path. -/
theorem resolve_fails_without_directive :
    Resolves (Loader.ofStore (storeOf [])) ⟨"/"⟩ ⟨""⟩ {} [] "a: 1".toList ()
      ⟨(), [], .error (.unreadable ⟨""⟩ .emptyPath)⟩ ∧
    ∀ base tree, Covers base [] "a: 1".toList (directives "a: 1".toList) tree →
      ∀ visits site failure, ¬ Stops (Loader.ofStore (storeOf [])) base {} tree ()
        ⟨(), [], .error (.unreadable ⟨""⟩ .emptyPath)⟩ visits site failure := by
  refine ⟨⟨0, rfl⟩, ?_⟩
  intro base tree covers visits site failure stops
  have undirected : directives "a: 1".toList = [] := by decide
  rw [undirected] at covers
  cases covers
  rcases stops.preorder with ⟨unseen, ordered⟩
  simp [IncludeTree.preorder] at ordered

/-- A document has another text when it is loaded again, below one that has a directive without an
operand on its second line. -/
def faultyScript : Script where
  documents := [(⟨"/b/a"⟩, ["{{ include c }}\n{{ include }}".toUTF8.data.toList]),
    (⟨"/b/c"⟩, ["{{ include d }}".toUTF8.data.toList, "x".toUTF8.data.toList]),
    (⟨"/b/d"⟩, ["y".toUTF8.data.toList])]
  remaining := 4
  calls := []

def faultyRun : Run Script where
  state :=
    { documents := [(⟨"/b/a"⟩, ["{{ include c }}\n{{ include }}".toUTF8.data.toList]),
        (⟨"/b/c"⟩, ["x".toUTF8.data.toList]), (⟨"/b/d"⟩, ["y".toUTF8.data.toList])]
      remaining := 0
      calls := [⟨"/b/c"⟩, ⟨"/b/d"⟩, ⟨"/b/a"⟩, ⟨"/b/c"⟩] }
  loads := [⟨"/b/c"⟩, ⟨"/b/d"⟩, ⟨"/b/a"⟩, ⟨"/b/c"⟩]
  result := .error (.missingOperand 2 "{{ include }}".toList)

theorem resolve_follows_preorder_faulty :
    Resolves Script.loader ⟨"/"⟩ ⟨"/b"⟩ {} [] "{{ include c }}{{ include a }}{{ include e }}".toList
      faultyScript faultyRun ∧
    ∃ base, Path.absolute? ⟨"/"⟩ ⟨"/b"⟩ = some base ∧
      ∃ tree, Covers base [] "{{ include c }}{{ include a }}{{ include e }}".toList
          (directives "{{ include c }}{{ include a }}{{ include e }}".toList) tree ∧
        ∃ visits site failure,
          Stops Script.loader base {} tree faultyScript faultyRun visits site failure := by
  have resolved : Resolves Script.loader ⟨"/"⟩ ⟨"/b"⟩ {} []
      "{{ include c }}{{ include a }}{{ include e }}".toList faultyScript faultyRun :=
    ⟨3, by rfl⟩
  refine ⟨resolved, ?_⟩
  rcases (resolve_follows_preorder resolved).2 (by decide) with
    ⟨base, based, tree, covers, ⟨visits, expansion, completes⟩ | ⟨visits, site, failure, stops, _⟩⟩
  · cases completes.result
  · exact ⟨base, based, tree, covers, visits, site, failure, stops⟩

end YamlTypes.Include
