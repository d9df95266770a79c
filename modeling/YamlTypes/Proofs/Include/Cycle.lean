import YamlTypes.Proofs.Include.Derivation
import Mathlib.Data.List.Chain
import Mathlib.Data.List.Nodup
import Mathlib.Logic.Relation

/-!
Cycles of includes.

The documents of a store and the directives in them form a graph. Where cycles
are detected, a reported chain is a path in it that comes back to itself, and an
expansion that succeeds has followed every path from its text, so that none of
them comes back.
-/

set_option autoImplicit false

namespace YamlTypes.Include

open Relation (ReflTransGen TransGen)

def Names (base : Path) (ps : List Piece) (path : Path) : Prop :=
  ∃ d ∈ ps.filterMap Piece.directive?, d.operand ≠ [] ∧ target base d.operand = path

def Includes (base : Path) (text : List Char) (path : Path) : Prop :=
  ∃ d ∈ directives text, d.operand ≠ [] ∧ target base d.operand = path

def Links (documents : Path → Except FileFault (List Char)) (base path next : Path) : Prop :=
  ∃ text, documents path = .ok text ∧ Includes base text next

/-- Includes lead from the text to a document that includes itself, directly or through others. -/
def ReachesCycle (documents : Path → Except FileFault (List Char)) (base : Path)
    (text : List Char) : Prop :=
  ∃ first path, Includes base text first ∧ ReflTransGen (Links documents base) first path ∧
    TransGen (Links documents base) path path

/-- A chain that follows includes from the text on and ends with the first document that is in it
for a second time. -/
structure FollowsCycle (documents : Path → Except FileFault (List Char)) (base : Path)
    (text : List Char) (chain : List Path) : Prop where
  begins : ∃ first ∈ chain.head?, Includes base text first
  linked : chain.IsChain (Links documents base)
  distinct : chain.dropLast.Nodup
  returns : ∃ last ∈ chain.getLast?, last ∈ chain.dropLast

@[simp] theorem names_char {base : Path} {c : Char} {rest : List Piece} {path : Path} :
    Names base (.char c :: rest) path ↔ Names base rest path := by
  simp [Names, Piece.directive?]

@[simp] theorem names_directive {base : Path} {d : Directive} {rest : List Piece} {path : Path} :
    Names base (.directive d :: rest) path ↔
      (d.operand ≠ [] ∧ target base d.operand = path) ∨ Names base rest path := by
  simp [Names, Piece.directive?]

theorem FollowsCycle.reachesCycle {documents : Path → Except FileFault (List Char)} {base : Path}
    {text : List Char} {chain : List Path} (follows : FollowsCycle documents base text chain) :
    ReachesCycle documents base text := by
  obtain ⟨first, isFirst, included⟩ := follows.begins
  obtain ⟨last, isLast, before⟩ := follows.returns
  have split : chain.dropLast ++ [last] = chain :=
    List.dropLast_append_getLast? last isLast
  have connected : (chain.dropLast ++ [last]).Pairwise (TransGen (Links documents base)) := by
    rw [split]
    exact (follows.linked.imp fun _ _ link => TransGen.single link).pairwise
  have toLast : ∀ path ∈ chain.dropLast, TransGen (Links documents base) path last :=
    fun path membership => (List.pairwise_append.mp connected).2.2 path membership last (by simp)
  refine ⟨first, last, included, ?_, toLast last before⟩
  have membership : first ∈ chain.dropLast ++ [last] := by
    rw [split]
    exact List.mem_of_mem_head? isFirst
  rcases List.mem_append.mp membership with earlier | same
  · exact (toLast first earlier).to_reflTransGen
  · rw [List.mem_singleton.mp same]

section
variable {σ : Type} {loader : Loader σ} {base : Path} {settings : Settings}
  {answer : Path → Encoding → Except FileFault (List Char)}

theorem Opens.named {chain : List Path} {d : Directive} {state next : σ} {text : List Char}
    (opens : Opens loader base settings chain d state text next) : d.operand ≠ [] :=
  (refusal?_eq_none_iff.mp opens.allowed).1

theorem Opens.fresh {chain : List Path} {d : Directive} {state next : σ} {text : List Char}
    (opens : Opens loader base settings chain d state text next)
    (detect : settings.cycles = .detect) : target base d.operand ∉ chain :=
  (refusal?_eq_none_iff.mp opens.allowed).2 detect

theorem Opens.distinct {chain : List Path} {d : Directive} {state next : σ} {text : List Char}
    (opens : Opens loader base settings chain d state text next)
    (detect : settings.cycles = .detect) (distinct : chain.Nodup) :
    (chain ++ [target base d.operand]).Nodup := by
  rw [← List.concat_eq_append]
  exact distinct.concat (opens.fresh detect)

/-- A reported cycle begins with the chain at hand and goes on along includes. -/
theorem Expands.cycle_extends (steady : loader.Answers answer)
    (detect : settings.cycles = .detect) {chain : List Path} {ps : List Piece} {state : σ}
    {run : Run σ} (derived : Expands loader base settings chain ps state run)
    (distinct : chain.Nodup) {reported : List Path}
    (result : run.result = .error (.cycle reported)) :
    ∃ first more, reported = chain ++ first :: more ∧ Names base ps first ∧
      (first :: more).IsChain (Links (answer · settings.encoding) base) ∧
      reported.dropLast.Nodup ∧ ∃ last ∈ reported.getLast?, last ∈ reported.dropLast := by
  induction derived with
  | nil => cases result
  | char _ inductionHypothesis =>
      rw [Run.after_error_iff] at result
      rcases inductionHypothesis distinct result with ⟨first, more, extended, named, linked⟩
      exact ⟨first, more, extended, names_char.mpr named, linked⟩
  | @refused chain d rest state failure refused =>
      rcases refusal?_eq_some_iff.mp refused with ⟨_, rfl⟩ | ⟨named, _, reentered, rfl⟩
      · cases result
      · cases result
        refine ⟨target base d.operand, [], rfl, names_directive.mpr (.inl ⟨named, rfl⟩),
          List.isChain_singleton _, ?_, target base d.operand, ?_, ?_⟩
        · rwa [List.dropLast_concat]
        · rw [List.getLast?_concat, Option.mem_some_iff]
        · rwa [List.dropLast_concat]
  | unreadable => cases result
  | @failed chain d rest state text next inner failure opens _ finished inductionHypothesis =>
      cases result
      rcases inductionHypothesis (opens.distinct detect distinct) finished with
        ⟨first, more, extended, named, linked, ends⟩
      refine ⟨target base d.operand, first :: more, ?_,
        names_directive.mpr (.inl ⟨opens.named, rfl⟩), ?_, ends⟩
      · rw [extended, List.append_assoc, List.singleton_append]
      · exact List.isChain_cons_cons.mpr ⟨⟨text, opens.answer_eq steady, named⟩, linked⟩
  | included _ _ _ _ _ laterHypothesis =>
      rw [Run.after_error_iff] at result
      rcases laterHypothesis distinct result with ⟨first, more, extended, named, linked⟩
      exact ⟨first, more, extended, names_directive.mpr (.inr named), linked⟩

def Completed (loader : Loader σ) (base : Path) (settings : Settings) (chain : List Path)
    (text : List Char) : Prop :=
  ∃ state run expansion, Expands loader base settings chain (pieces text) state run ∧
    run.result = .ok expansion

theorem Expands.completed_of_names (steady : loader.Answers answer) {chain : List Path}
    {ps : List Piece} {state : σ} {run : Run σ} {expansion : Expansion}
    (derived : Expands loader base settings chain ps state run)
    (succeeded : run.result = .ok expansion) {path : Path} (named : Names base ps path) :
    (settings.cycles = .detect → path ∉ chain) ∧
      ∃ text, answer path settings.encoding = .ok text ∧
        Completed loader base settings (chain ++ [path]) text := by
  induction derived generalizing expansion with
  | nil => simp [Names] at named
  | char _ inductionHypothesis =>
      rcases Run.ok_of_after_ok succeeded with ⟨later, laterSucceeded, _⟩
      exact inductionHypothesis laterSucceeded (names_char.mp named)
  | refused => cases succeeded
  | unreadable => cases succeeded
  | failed => cases succeeded
  | @included chain d rest state text next inner expanded run opens derived finished _ _
      laterHypothesis =>
      rcases names_directive.mp named with ⟨_, rfl⟩ | later
      · exact ⟨opens.fresh, text, opens.answer_eq steady, next, inner, expanded, derived, finished⟩
      · rcases Run.ok_of_after_ok succeeded with ⟨_, laterSucceeded, _⟩
        exact laterHypothesis laterSucceeded later

theorem Completed.follow (steady : loader.Answers answer) {chain : List Path} {text : List Char}
    (completed : Completed loader base settings chain text) {path : Path}
    (included : Includes base text path) :
    (settings.cycles = .detect → path ∉ chain) ∧
      ∃ next, answer path settings.encoding = .ok next ∧
        Completed loader base settings (chain ++ [path]) next := by
  obtain ⟨state, run, expansion, derived, succeeded⟩ := completed
  exact derived.completed_of_names steady succeeded included

/-- Along includes the completed documents pile up in the chain and are never met again. -/
theorem Completed.leaves (steady : loader.Answers answer) (detect : settings.cycles = .detect)
    {chain : List Path} {path later : Path} {text : List Char}
    (found : answer path settings.encoding = .ok text)
    (completed : Completed loader base settings (chain ++ [path]) text)
    (leads : TransGen (Links (answer · settings.encoding) base) path later) :
    ∃ longer next, path ∈ longer ∧ later ∉ longer ∧ answer later settings.encoding = .ok next ∧
      Completed loader base settings (longer ++ [later]) next := by
  induction leads with
  | single link =>
      obtain ⟨linkText, linkFound, included⟩ := link
      obtain rfl := Except.ok.inj (found.symm.trans linkFound)
      rcases completed.follow steady included with ⟨fresh, next, nextFound, nextCompleted⟩
      exact ⟨chain ++ [path], next, by simp, fresh detect, nextFound, nextCompleted⟩
  | tail _ link inductionHypothesis =>
      obtain ⟨longer, middle, membership, _, middleFound, middleCompleted⟩ := inductionHypothesis
      obtain ⟨linkText, linkFound, included⟩ := link
      obtain rfl := Except.ok.inj (middleFound.symm.trans linkFound)
      rcases middleCompleted.follow steady included with ⟨fresh, next, nextFound, nextCompleted⟩
      exact ⟨_, next, List.mem_append_left _ membership, fresh detect, nextFound, nextCompleted⟩

/-- An expansion that succeeds has met no cycle, so there is none. -/
theorem Completed.not_reachesCycle (steady : loader.Answers answer)
    (detect : settings.cycles = .detect) {text : List Char}
    (completed : Completed loader base settings [] text) :
    ¬ ReachesCycle (answer · settings.encoding) base text := by
  rintro ⟨first, path, included, reached, returns⟩
  rcases completed.follow steady included with ⟨_, firstText, firstFound, firstCompleted⟩
  obtain ⟨chain, pathText, pathFound, pathCompleted⟩ : ∃ chain pathText,
      answer path settings.encoding = .ok pathText ∧
        Completed loader base settings (chain ++ [path]) pathText := by
    rcases Relation.reflTransGen_iff_eq_or_transGen.mp reached with rfl | leads
    · exact ⟨[], firstText, firstFound, firstCompleted⟩
    · rcases firstCompleted.leaves steady detect firstFound leads with
        ⟨longer, next, _, _, nextFound, nextCompleted⟩
      exact ⟨longer, next, nextFound, nextCompleted⟩
  rcases pathCompleted.leaves steady detect pathFound returns with
    ⟨longer, _, membership, absent, _⟩
  exact absent membership

/-- Where cycles are detected, a reported chain follows includes from the text on back to one of
its own documents, no text that reaches a cycle is expanded successfully, and no text that reaches
none has a cycle reported. -/
theorem resolve_detects_cycles {directory root : Path} {text : List Char} {state : σ} {run : Run σ}
    (steady : loader.Answers answer) (detect : settings.cycles = .detect)
    (resolved : Resolves loader directory root settings [] text state run) :
    (∀ chain, run.result = .error (.cycle chain) →
      ∃ base, Path.absolute? directory root = some base ∧
        FollowsCycle (answer · settings.encoding) base text chain) ∧
    ∀ base, Path.absolute? directory root = some base →
      (ReachesCycle (answer · settings.encoding) base text →
        ∀ expansion, run.result ≠ .ok expansion) ∧
      (¬ ReachesCycle (answer · settings.encoding) base text →
        ∀ chain, run.result ≠ .error (.cycle chain)) := by
  have reported : ∀ chain, run.result = .error (.cycle chain) →
      ∃ base, Path.absolute? directory root = some base ∧
        FollowsCycle (answer · settings.encoding) base text chain := by
    intro chain result
    cases based : Path.absolute? directory root with
    | none =>
        rw [resolves_iff_of_no_base based] at resolved
        rw [resolved] at result
        cases result
    | some base =>
        rw [resolves_iff_of_base based] at resolved
        rcases resolved.cycle_extends steady detect List.nodup_nil result with
          ⟨first, more, rfl, included, linked, distinct, returns⟩
        exact ⟨base, rfl, ⟨first, rfl, included⟩, linked, distinct, returns⟩
  refine ⟨reported, fun base based => ⟨?_, ?_⟩⟩
  · intro cyclic expansion succeeded
    rw [resolves_iff_of_base based] at resolved
    have completed : Completed loader base settings [] text :=
      ⟨state, run, expansion, resolved, succeeded⟩
    exact completed.not_reachesCycle steady detect cyclic
  · intro acyclic chain result
    rcases reported chain result with ⟨other, sameBase, follows⟩
    obtain rfl := Option.some.inj (based.symm.trans sameBase)
    exact acyclic follows.reachesCycle

end

/-- One document is included twice, which is no cycle; another one includes the first again. -/
def loopingDocuments : List (String × String) :=
  [("/b/a", "{{ include c }}{{ include c }}{{ include d }}"), ("/b/c", "x"),
    ("/b/d", "{{ include a }}")]

theorem resolve_detects_cycles_looping :
    Resolves (Loader.ofStore (storeOf loopingDocuments)) ⟨"/"⟩ ⟨"/b"⟩ {} []
      "{{ include a }}".toList ()
      ⟨(), [⟨"/b/a"⟩, ⟨"/b/c"⟩, ⟨"/b/c"⟩, ⟨"/b/d"⟩],
        .error (.cycle [⟨"/b/a"⟩, ⟨"/b/d"⟩, ⟨"/b/a"⟩])⟩ ∧
    ∃ base, Path.absolute? ⟨"/"⟩ ⟨"/b"⟩ = some base ∧
      FollowsCycle (storeOf loopingDocuments · .utf8) base "{{ include a }}".toList
        [⟨"/b/a"⟩, ⟨"/b/d"⟩, ⟨"/b/a"⟩] := by
  have resolved : Resolves (Loader.ofStore (storeOf loopingDocuments)) ⟨"/"⟩ ⟨"/b"⟩ {} []
      "{{ include a }}".toList ()
      ⟨(), [⟨"/b/a"⟩, ⟨"/b/c"⟩, ⟨"/b/c"⟩, ⟨"/b/d"⟩],
        .error (.cycle [⟨"/b/a"⟩, ⟨"/b/d"⟩, ⟨"/b/a"⟩])⟩ := ⟨3, by rfl⟩
  have steady := Loader.ofStore_answers (storeOf loopingDocuments)
  exact ⟨resolved, (resolve_detects_cycles steady rfl resolved).1 _ rfl⟩

end YamlTypes.Include
