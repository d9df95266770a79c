import YamlTypes.Proofs.Workspace.Writing

/-!
What stays where files are written.

A path is followed through directories only. So workspaces that have the same
directories lead every path to the same location, and a file has a place in one
of them if it has one in the other. Writing files keeps all directories, and
writing a file as it is changes nothing.
-/

set_option autoImplicit false

namespace YamlTypes

namespace FileTree

variable {tree other : FileTree} {location here there : Location} {entry : Entry}

def SameDirectories (tree other : FileTree) : Prop :=
  ∀ location, tree.get? location = some .directory ↔ other.get? location = some .directory

theorem SameDirectories.set (below : location ≠ []) (free : tree.get? location ≠ some .directory)
    (bytes : List UInt8) : tree.SameDirectories (tree.set location (.file bytes)) := by
  intro other
  rw [get?_set below]
  by_cases same : other = location
  · rw [if_pos same, same]
    exact iff_of_false free nofun
  · rw [if_neg same]

theorem step_of_directory {segment : String}
    (inDirectory : tree.get? here = some .directory → other.get? here = some .directory)
    (stepped : tree.step here segment = .ok there) : other.step here segment = .ok there := by
  unfold step at stepped
  split at stepped
  next => cases stepped
  next => cases stepped
  next found => rw [step, inDirectory found, stepped]

theorem SameDirectories.walk (same : tree.SameDirectories other) {segments : List String}
    (walked : tree.walk here segments = .ok there) : other.walk here segments = .ok there := by
  induction segments generalizing here with
  | nil => exact walked
  | cons segment rest inductionHypothesis =>
      unfold FileTree.walk at walked ⊢
      cases stepped : tree.step here segment with
      | error fault =>
          rw [stepped] at walked
          cases walked
      | ok middle =>
          rw [stepped] at walked
          rw [step_of_directory (same here).mp stepped]
          exact inductionHypothesis walked

theorem setEntry_of_lookup {entries : List (Location × Entry)}
    (found : entries.lookup location = some entry) : setEntry location entry entries = entries := by
  induction entries with
  | nil => cases found
  | cons first rest inductionHypothesis =>
      obtain ⟨l, e⟩ := first
      rw [lookup_cons_ite] at found
      unfold setEntry
      by_cases same : l = location
      · rw [if_pos same.symm] at found
        rw [if_pos same, Option.some.inj found]
      · rw [if_neg (Ne.symm same)] at found
        rw [if_neg same, inductionHypothesis found]

theorem set_of_get? (below : location ≠ []) (found : tree.get? location = some entry) :
    tree.set location entry = tree := by
  unfold get? at found
  rw [if_neg below] at found
  rw [set, setEntry_of_lookup found]

theorem filterMap_setEntry {β : Type} {select : Location × Entry → Option β}
    (skipped : ∀ entry, select (location, entry) = none) (entry : Entry)
    (entries : List (Location × Entry)) :
    (setEntry location entry entries).filterMap select = entries.filterMap select := by
  induction entries with
  | nil => rw [setEntry, List.filterMap_cons_none (skipped entry)]
  | cons first rest inductionHypothesis =>
      obtain ⟨l, e⟩ := first
      unfold setEntry
      by_cases same : l = location
      · subst same
        rw [if_pos rfl, List.filterMap_cons_none (skipped entry),
          List.filterMap_cons_none (skipped e)]
      · rw [if_neg same, List.filterMap_cons, List.filterMap_cons, inductionHypothesis]

end FileTree

namespace Workspace

structure SameDirectories (w later : Workspace) : Prop where
  directory : later.directory = w.directory
  tree : w.tree.SameDirectories later.tree

namespace SameDirectories

variable {w middle later : Workspace} {path : Path} {location : Location}

protected theorem refl (w : Workspace) : w.SameDirectories w := ⟨rfl, fun _ => Iff.rfl⟩

protected theorem symm (same : w.SameDirectories later) : later.SameDirectories w :=
  ⟨same.directory.symm, fun location => (same.tree location).symm⟩

protected theorem trans (first : w.SameDirectories middle) (second : middle.SameDirectories later) :
    w.SameDirectories later :=
  ⟨second.directory.trans first.directory,
    fun location => (first.tree location).trans (second.tree location)⟩

theorem origin (same : w.SameDirectories later) (path : Path) :
    later.origin path = w.origin path := by
  rw [Workspace.origin, Workspace.origin, same.directory]

theorem locate (same : w.SameDirectories later) (located : w.locate path = .ok location) :
    later.locate path = .ok location := by
  unfold Workspace.locate at located ⊢
  rw [same.origin]
  split at located
  next => cases located
  next => exact same.tree.walk located

theorem locate_iff (same : w.SameDirectories later) :
    later.locate path = .ok location ↔ w.locate path = .ok location :=
  ⟨same.symm.locate, same.locate⟩

theorem exists_locate_error (same : w.SameDirectories later) {fault : Include.FileFault}
    (lost : w.locate path = .error fault) : ∃ other, later.locate path = .error other := by
  cases found : later.locate path with
  | error other => exact ⟨other, rfl⟩
  | ok location =>
      rw [same.locate_iff, lost] at found
      cases found

theorem writable (same : w.SameDirectories later) (free : w.writable path = .ok location) :
    later.writable path = .ok location := by
  unfold Workspace.writable at free ⊢
  rw [same.origin]
  split at free
  next => cases free
  next =>
    simp only at free ⊢
    split at free
    next => cases free
    next parent walked =>
      rw [same.tree.walk walked]
      split at free
      next => cases free
      next there stepped =>
        simp only [FileTree.step_of_directory (same.tree parent).mp stepped, ← same.tree there]
        exact free

theorem writable_iff (same : w.SameDirectories later) :
    later.writable path = .ok location ↔ w.writable path = .ok location :=
  ⟨same.symm.writable, same.writable⟩

/-- What is at the end of a path has not changed if it has not changed at that location. -/
theorem entry? (same : w.SameDirectories later)
    (kept : ∀ location, w.locate path = .ok location →
      later.tree.get? location = w.tree.get? location) :
    later.entry? path = w.entry? path := by
  unfold Workspace.entry?
  cases located : w.locate path with
  | ok location =>
      rw [same.locate located]
      exact kept location located
  | error fault =>
      rcases same.exists_locate_error located with ⟨other, lost⟩
      rw [lost]

theorem isDirectory (same : w.SameDirectories later) (path : Path) :
    later.isDirectory path = w.isDirectory path := by
  unfold Workspace.isDirectory Workspace.entry?
  cases located : w.locate path with
  | ok location =>
      rw [same.locate located, Bool.eq_iff_iff, beq_iff_eq, beq_iff_eq]
      exact (same.tree location).symm
  | error fault =>
      rcases same.exists_locate_error located with ⟨other, lost⟩
      rw [lost]

theorem read (same : w.SameDirectories later) (located : w.locate path = .ok location)
    (kept : later.tree.get? location = w.tree.get? location) :
    later.read path = w.read path := by
  rw [Workspace.read, Workspace.read, same.locate located, located]
  simp only [kept]

end SameDirectories

variable {w after : Workspace} {path : Path} {location : Location} {bytes : List UInt8}
  {text : List Char} {encoding : Encoding}

theorem exists_locate_of_readText (readable : w.readText path encoding = .ok text) :
    ∃ location, w.locate path = .ok location := by
  unfold readText read at readable
  cases located : w.locate path with
  | error fault =>
      rw [located] at readable
      cases readable
  | ok location => exact ⟨location, rfl⟩

theorem ne_root_of_writable (free : w.writable path = .ok location) : location ≠ [] := by
  rintro rfl
  exact (locate_of_writable free).2 rfl

theorem write_of_writable (free : w.writable path = .ok location) (bytes : List UInt8) :
    w.write path bytes = .ok { w with tree := w.tree.set location (.file bytes) } := by
  rw [write, free]
  rfl

theorem sameDirectories_set (free : w.writable path = .ok location) (bytes : List UInt8) :
    w.SameDirectories { w with tree := w.tree.set location (.file bytes) } :=
  ⟨rfl, .set (ne_root_of_writable free) (locate_of_writable free).2 bytes⟩

end Workspace

end YamlTypes
