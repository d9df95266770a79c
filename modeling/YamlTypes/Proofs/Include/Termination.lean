import YamlTypes.Proofs.Include.Cycle
import Mathlib.Data.Set.Card

/-!
Where cycles are detected, expansion ends.

The chain never holds a document twice, and it holds only documents that the
loader had a text for. So it is no longer than there are such documents, whatever
the texts say and however they change from one load to the next.
-/

set_option autoImplicit false

namespace YamlTypes.Include

open Relation (ReflTransGen)

variable {σ : Type}

/-- The later states of a loader, each reached by answering. -/
def Loader.Leads (loader : Loader σ) : σ → σ → Prop :=
  ReflTransGen fun state next => ∃ path encoding, (loader.load path encoding state).1 = next

def Loader.loadable (loader : Loader σ) (encoding : Encoding) (state : σ) : Set Path :=
  {path | ∃ later, loader.Leads state later ∧
    ∃ text, (loader.load path encoding later).2 = .ok text}

/-- From a state on, the loader has no text for documents outside of a set. -/
def Loader.Confined (loader : Loader σ) (base : Path) (encoding : Encoding) (paths : Finset Path)
    (state : σ) : Prop :=
  ∀ later, loader.Leads state later → ∀ operand text,
    (loader.load (target base operand) encoding later).2 = .ok text → target base operand ∈ paths

theorem Loader.Confined.later {loader : Loader σ} {base : Path} {encoding : Encoding}
    {paths : Finset Path} {state next : σ} (confined : loader.Confined base encoding paths state)
    (leads : loader.Leads state next) : loader.Confined base encoding paths next :=
  fun later further => confined later (leads.trans further)

theorem Loader.confined_of_finite {loader : Loader σ} {encoding : Encoding} {state : σ}
    (finite : (loader.loadable encoding state).Finite) (base : Path) :
    loader.Confined base encoding finite.toFinset state := by
  intro later leads operand text loaded
  exact finite.mem_toFinset.mpr ⟨later, leads, text, loaded⟩

section
variable (loader : Loader σ) (base : Path) (settings : Settings)

/-- While pieces are expanded in a chain, the expansion of a text begins in a longer one. -/
inductive Calls : List Path → List Piece → σ → List Path → List Char → σ → Prop
  | char {chain c rest state longer document later} :
      Calls chain rest state longer document later →
      Calls chain (.char c :: rest) state longer document later
  | here {chain d rest state text next} :
      Opens loader base settings chain d state text next →
      Calls chain (.directive d :: rest) state (chain ++ [target base d.operand]) text next
  | nested {chain d rest state text next longer document later} :
      Opens loader base settings chain d state text next →
      Calls (chain ++ [target base d.operand]) (pieces text) next longer document later →
      Calls chain (.directive d :: rest) state longer document later
  | passed {chain d rest state text next inner expansion longer document later} :
      Opens loader base settings chain d state text next →
      Expands loader base settings (chain ++ [target base d.operand]) (pieces text) next inner →
      inner.result = .ok expansion →
      Calls chain rest inner.state longer document later →
      Calls chain (.directive d :: rest) state longer document later

end

section
variable {loader : Loader σ} {base : Path} {settings : Settings} {paths : Finset Path}

theorem Opens.leads {chain : List Path} {d : Directive} {state next : σ} {text : List Char}
    (opens : Opens loader base settings chain d state text next) : loader.Leads state next :=
  .single ⟨_, _, congrArg Prod.fst opens.loaded⟩

theorem Opens.target_mem {chain : List Path} {d : Directive} {state next : σ} {text : List Char}
    (opens : Opens loader base settings chain d state text next)
    (confined : loader.Confined base settings.encoding paths state) :
    target base d.operand ∈ paths :=
  confined state .refl d.operand text (congrArg Prod.snd opens.loaded)

/-- A run leaves the loader in a state that it came to by answering. -/
theorem Expands.leads {chain : List Path} {ps : List Piece} {state : σ} {run : Run σ}
    (derived : Expands loader base settings chain ps state run) :
    loader.Leads state run.state := by
  induction derived with
  | nil => exact .refl
  | char _ inductionHypothesis => exact inductionHypothesis
  | refused => exact .refl
  | unreadable _ loaded => exact .single ⟨_, _, congrArg Prod.fst loaded⟩
  | failed opens _ _ inductionHypothesis => exact opens.leads.trans inductionHypothesis
  | included opens _ _ _ innerHypothesis laterHypothesis =>
      exact opens.leads.trans (innerHypothesis.trans laterHypothesis)

theorem Expands.result_ne_endless {chain : List Path} {ps : List Piece} {state : σ} {run : Run σ}
    (derived : Expands loader base settings chain ps state run) :
    run.result ≠ .error .endless := by
  induction derived with
  | nil => simp
  | char _ inductionHypothesis => rwa [ne_eq, Run.after_error_iff]
  | refused refused =>
      rcases refusal?_eq_some_iff.mp refused with ⟨_, rfl⟩ | ⟨_, _, _, rfl⟩ <;> simp
  | unreadable => simp
  | failed _ _ finished inductionHypothesis =>
      rwa [finished] at inductionHypothesis
  | included _ _ _ _ _ laterHypothesis => rwa [ne_eq, Run.after_error_iff]

structure ChainWithin (paths : Finset Path) (chain : List Path) : Prop where
  distinct : chain.Nodup
  confined : ∀ path ∈ chain, path ∈ paths

theorem ChainWithin.nil (paths : Finset Path) : ChainWithin paths [] :=
  ⟨List.nodup_nil, by simp⟩

theorem ChainWithin.length_le {chain : List Path} (within : ChainWithin paths chain) :
    chain.length ≤ paths.card := by
  rw [← List.toFinset_card_of_nodup within.distinct]
  apply Finset.card_le_card
  intro path membership
  exact within.confined path (List.mem_toFinset.mp membership)

theorem ChainWithin.extend {chain : List Path} {d : Directive} {state next : σ} {text : List Char}
    (within : ChainWithin paths chain) (detect : settings.cycles = .detect)
    (confined : loader.Confined base settings.encoding paths state)
    (opens : Opens loader base settings chain d state text next) :
    ChainWithin paths (chain ++ [target base d.operand]) where
  distinct := opens.distinct detect within.distinct
  confined := by
    intro path membership
    rcases List.mem_append.mp membership with earlier | last
    · exact within.confined path earlier
    · rw [List.mem_singleton.mp last]
      exact opens.target_mem confined

theorem Calls.trans {chain middle longer : List Path} {ps : List Piece} {state next later : σ}
    {text document : List Char}
    (outer : Calls loader base settings chain ps state middle text next)
    (inner : Calls loader base settings middle (pieces text) next longer document later) :
    Calls loader base settings chain ps state longer document later := by
  induction outer with
  | char _ inductionHypothesis => exact .char (inductionHypothesis inner)
  | here opens => exact .nested opens inner
  | nested opens _ inductionHypothesis => exact .nested opens (inductionHypothesis inner)
  | passed opens derived finished _ inductionHypothesis =>
      exact .passed opens derived finished (inductionHypothesis inner)

/-- No chain that comes up leaves the set. -/
theorem Calls.within (detect : settings.cycles = .detect) {chain longer : List Path}
    {ps : List Piece} {state later : σ} {document : List Char}
    (calls : Calls loader base settings chain ps state longer document later)
    (confined : loader.Confined base settings.encoding paths state)
    (within : ChainWithin paths chain) : ChainWithin paths longer := by
  induction calls with
  | char _ inductionHypothesis => exact inductionHypothesis confined within
  | here opens => exact within.extend detect confined opens
  | nested opens _ inductionHypothesis =>
      exact inductionHypothesis (confined.later opens.leads) (within.extend detect confined opens)
  | passed opens derived _ _ inductionHypothesis =>
      exact inductionHypothesis (confined.later (opens.leads.trans derived.leads)) within

/-- Only where a call begins is the expansion of another text asked for. -/
theorem expandPieces_congr {expandText other : List Path → List Char → σ → Option (Run σ)}
    (sound : ∀ {chain text state run}, expandText chain text state = some run →
      Expands loader base settings chain (pieces text) state run)
    {chain : List Path} {ps : List Piece} {state : σ}
    (agree : ∀ path document later,
      Calls loader base settings chain ps state (chain ++ [path]) document later →
      expandText (chain ++ [path]) document later = other (chain ++ [path]) document later) :
    expandPieces loader base settings expandText chain ps state =
      expandPieces loader base settings other chain ps state := by
  induction ps generalizing state with
  | nil => rfl
  | cons p rest inductionHypothesis =>
      cases p with
      | char c =>
          rw [expandPieces_char, expandPieces_char, inductionHypothesis]
          intro path document later calls
          exact agree path document later (.char calls)
      | directive d =>
          rcases directive_cases loader base settings chain d state with
            ⟨failure, refused⟩ | ⟨next, fault, allowed, loaded⟩ | ⟨text, next, opens⟩
          · rw [expandPieces_refused rest refused, expandPieces_refused rest refused]
          · rw [expandPieces_unreadable rest allowed loaded,
              expandPieces_unreadable rest allowed loaded]
          · have same := agree _ _ _ (.here opens)
            cases answered : expandText (chain ++ [target base d.operand]) text next with
            | none =>
                rw [expandPieces_unended rest opens answered,
                  expandPieces_unended rest opens (same.symm.trans answered)]
            | some inner =>
                have alsoAnswered := same.symm.trans answered
                cases finished : inner.result with
                | error failure =>
                    rw [expandPieces_failed rest opens answered finished,
                      expandPieces_failed rest opens alsoAnswered finished]
                | ok expansion =>
                    rw [expandPieces_included rest opens answered finished,
                      expandPieces_included rest opens alsoAnswered finished, inductionHypothesis]
                    intro path document later calls
                    exact agree path document later (.passed opens (sound answered) finished calls)

/-- Pieces expand to the end if the calls out of them do. -/
theorem exists_expandPieces {expandText : List Path → List Char → σ → Option (Run σ)}
    (sound : ∀ {chain text state run}, expandText chain text state = some run →
      Expands loader base settings chain (pieces text) state run)
    {chain : List Path} {ps : List Piece} {state : σ}
    (ends : ∀ path document later,
      Calls loader base settings chain ps state (chain ++ [path]) document later →
      ∃ inner, expandText (chain ++ [path]) document later = some inner) :
    ∃ run, expandPieces loader base settings expandText chain ps state = some run := by
  induction ps generalizing state with
  | nil => exact ⟨_, rfl⟩
  | cons p rest inductionHypothesis =>
      cases p with
      | char c =>
          obtain ⟨run, expanded⟩ := inductionHypothesis fun path document later calls =>
            ends path document later (.char calls)
          exact ⟨_, by rw [expandPieces_char, expanded, Option.map_some]⟩
      | directive d =>
          rcases directive_cases loader base settings chain d state with
            ⟨failure, refused⟩ | ⟨next, fault, allowed, loaded⟩ | ⟨text, next, opens⟩
          · exact ⟨_, expandPieces_refused rest refused⟩
          · exact ⟨_, expandPieces_unreadable rest allowed loaded⟩
          · obtain ⟨inner, answered⟩ := ends _ _ _ (.here opens)
            cases finished : inner.result with
            | error failure => exact ⟨_, expandPieces_failed rest opens answered finished⟩
            | ok expansion =>
                obtain ⟨run, expanded⟩ := inductionHypothesis fun path document later calls =>
                  ends path document later (.passed opens (sound answered) finished calls)
                exact ⟨_, by
                  rw [expandPieces_included rest opens answered finished, expanded,
                    Option.map_some]⟩

theorem exists_inner {depth : Nat} {chain : List Path} {d : Directive} {rest : List Piece}
    {state next : σ} {text : List Char} {run : Run σ}
    (opens : Opens loader base settings chain d state text next)
    (expanded : expandPieces loader base settings (expand loader base settings depth) chain
      (.directive d :: rest) state = some run) :
    ∃ less inner, depth = less + 1 ∧
      expandPieces loader base settings (expand loader base settings less)
        (chain ++ [target base d.operand]) (pieces text) next = some inner := by
  cases answered :
      expand loader base settings depth (chain ++ [target base d.operand]) text next with
  | none =>
      rw [expandPieces_unended rest opens answered] at expanded
      cases expanded
  | some inner =>
      cases depth with
      | zero => cases answered
      | succ less => exact ⟨less, inner, rfl, answered⟩

/-- A finished expansion has made no call that nests deeper than it may. -/
theorem Calls.length_le {chain longer : List Path} {ps : List Piece} {state later : σ}
    {document : List Char}
    (calls : Calls loader base settings chain ps state longer document later) {depth : Nat}
    {run : Run σ} (expanded : expandPieces loader base settings (expand loader base settings depth)
      chain ps state = some run) :
    longer.length ≤ chain.length + depth := by
  induction calls generalizing depth run with
  | char _ inductionHypothesis =>
      rw [expandPieces_char, Option.map_eq_some_iff] at expanded
      obtain ⟨others, othersExpanded, -⟩ := expanded
      exact inductionHypothesis othersExpanded
  | here opens =>
      obtain ⟨less, inner, rfl, -⟩ := exists_inner opens expanded
      rw [List.length_append, List.length_singleton]
      omega
  | nested opens _ inductionHypothesis =>
      obtain ⟨less, inner, rfl, innerExpanded⟩ := exists_inner opens expanded
      have bound := inductionHypothesis innerExpanded
      rw [List.length_append, List.length_singleton] at bound
      omega
  | passed opens derived finished _ inductionHypothesis =>
      obtain ⟨less, inner, rfl, innerExpanded⟩ := exists_inner opens expanded
      obtain rfl := derived.unique (.of_expandPieces .of_expand innerExpanded)
      rw [expandPieces_included _ opens innerExpanded finished, Option.map_eq_some_iff] at expanded
      obtain ⟨others, othersExpanded, -⟩ := expanded
      exact inductionHypothesis othersExpanded

/-- Pieces expand to the end at a depth exactly if no call nests deeper. -/
theorem exists_expandPieces_iff {depth : Nat} {chain : List Path} {ps : List Piece} {state : σ} :
    (∃ run, expandPieces loader base settings (expand loader base settings depth) chain ps state =
      some run) ↔
    ∀ longer document later, Calls loader base settings chain ps state longer document later →
      longer.length ≤ chain.length + depth := by
  constructor
  · rintro ⟨run, expanded⟩ longer document later calls
    exact calls.length_le expanded
  · intro bounded
    induction depth generalizing chain ps state with
    | zero =>
        apply exists_expandPieces .of_expand
        intro path document later calls
        have bound := bounded _ _ _ calls
        rw [List.length_append, List.length_singleton] at bound
        omega
    | succ depth inductionHypothesis =>
        apply exists_expandPieces .of_expand
        intro path document later calls
        apply inductionHypothesis
        intro longer inner last nested
        have bound := bounded _ _ _ (calls.trans nested)
        rw [List.length_append, List.length_singleton]
        omega

/-- Each level of nesting takes one of the documents that are not yet in the chain. -/
theorem exists_expand (detect : settings.cycles = .detect) {depth : Nat} {chain : List Path}
    (within : ChainWithin paths chain) (enough : paths.card < depth + chain.length)
    (text : List Char)
    {state : σ} (confined : loader.Confined base settings.encoding paths state) :
    ∃ run, expand loader base settings depth chain text state = some run := by
  cases depth with
  | zero =>
      have bound := within.length_le
      omega
  | succ depth =>
      apply exists_expandPieces_iff.mpr
      intro longer document later calls
      have bound := (calls.within detect confined within).length_le
      omega

/-- Where cycles are detected and the loader has texts for finitely many paths only, a resolution
ends, with one level of nesting more than there are such paths at most, and in no chain that it
comes to does a document stand twice. -/
theorem resolve_ends {directory root : Path} {text : List Char} {state : σ}
    (detect : settings.cycles = .detect)
    (finite : (loader.loadable settings.encoding state).Finite) :
    (∃ run, resolve loader directory root settings
        ((loader.loadable settings.encoding state).ncard + 1) [] text state = some run ∧
      run.result ≠ .error .endless) ∧
    ∀ base, Path.absolute? directory root = some base → ∀ chain document later,
      Calls loader base settings [] (pieces text) state chain document later →
        chain.Nodup ∧ chain.length ≤ (loader.loadable settings.encoding state).ncard := by
  rw [Set.ncard_eq_toFinset_card _ finite]
  constructor
  · cases based : Path.absolute? directory root with
    | none => exact ⟨_, resolve_of_no_base based _, by simp⟩
    | some base =>
        have confined := Loader.confined_of_finite finite base
        have enough : finite.toFinset.card < finite.toFinset.card + 1 + ([] : List Path).length := by
          simp
        rcases exists_expand detect (ChainWithin.nil _) enough text confined with ⟨run, expanded⟩
        exact ⟨run, (resolve_of_base based _).trans expanded,
          (Expands.of_expand expanded).result_ne_endless⟩
  · intro base _ chain document later calls
    have confined := Loader.confined_of_finite finite base
    have within := calls.within detect confined (ChainWithin.nil _)
    exact ⟨within.distinct, within.length_le⟩

end

namespace Script

theorem take_paths (path : Path) (documents : List (Path × List (List UInt8))) :
    (take path documents).2.map Prod.fst = documents.map Prod.fst := by
  induction documents with
  | nil => rfl
  | cons entry rest inductionHypothesis =>
      obtain ⟨other, versions⟩ := entry
      unfold take
      split
      next => rfl
      next => rw [List.map_cons, List.map_cons, inductionHypothesis]

theorem take_eq_none {path : Path} {documents : List (Path × List (List UInt8))}
    (absent : path ∉ documents.map Prod.fst) : (take path documents).1 = none := by
  induction documents with
  | nil => rfl
  | cons entry rest inductionHypothesis =>
      obtain ⟨other, versions⟩ := entry
      rw [List.map_cons, List.mem_cons, not_or] at absent
      unfold take
      rw [if_neg (Ne.symm absent.1)]
      exact inductionHypothesis absent.2

theorem load_paths (path : Path) (encoding : Encoding) (script : Script) :
    (script.load path encoding).1.documents.map Prod.fst = script.documents.map Prod.fst := by
  unfold load
  split
  next => rfl
  next => exact take_paths path script.documents

theorem mem_paths_of_load {path : Path} {encoding : Encoding} {script : Script}
    {text : List Char} (loaded : (script.load path encoding).2 = .ok text) :
    path ∈ script.documents.map Prod.fst := by
  by_contra absent
  unfold load at loaded
  split at loaded
  next => cases loaded
  next =>
    simp only [take_eq_none absent] at loaded
    cases loaded

theorem leads_paths {script later : Script} (leads : loader.Leads script later) :
    later.documents.map Prod.fst = script.documents.map Prod.fst := by
  induction leads with
  | refl => rfl
  | tail _ step inductionHypothesis =>
      obtain ⟨path, encoding, rfl⟩ := step
      rw [← inductionHypothesis]
      exact load_paths path encoding _

/-- A script has texts for its own documents only, however they change. -/
theorem loadable_finite (encoding : Encoding) (script : Script) :
    (loader.loadable encoding script).Finite := by
  apply Set.Finite.subset (script.documents.map Prod.fst).toFinset.finite_toSet
  rintro path ⟨later, leads, text, loaded⟩
  rw [Finset.mem_coe, List.mem_toFinset, ← leads_paths leads]
  exact mem_paths_of_load loaded

end Script

/-- A document that leaves another one alone only after it has been loaded twice. -/
def changingScript : Script where
  documents := [(⟨"/b/a"⟩, ["{{ include c }}{{ include a }}".toUTF8.toList]),
    (⟨"/b/c"⟩, ["{{ include d }}".toUTF8.toList, "x".toUTF8.toList])]
  remaining := 1000
  calls := []

theorem resolve_ends_changing :
    (Script.loader.loadable .utf8 changingScript).Finite ∧
    (∃ run, resolve Script.loader ⟨"/"⟩ ⟨"/b"⟩ {}
        ((Script.loader.loadable .utf8 changingScript).ncard + 1) []
        "{{ include a }}{{ include c }}".toList changingScript = some run ∧
      run.result ≠ .error .endless) ∧
    ∀ base, Path.absolute? ⟨"/"⟩ ⟨"/b"⟩ = some base → ∀ chain document later,
      Calls Script.loader base {} [] (pieces "{{ include a }}{{ include c }}".toList)
          changingScript chain document later →
        chain.Nodup ∧ chain.length ≤ (Script.loader.loadable .utf8 changingScript).ncard :=
  have finite := Script.loadable_finite .utf8 changingScript
  ⟨finite, resolve_ends rfl finite⟩

end YamlTypes.Include
