import YamlTypes.Command.Run

/-!
The program.

A command runs on a picture of the disk that holds what the command may need.
When it fails because an included document is not in the picture, the picture is
extended and the command runs again. Then what it has written goes to the disk.
-/

set_option autoImplicit false

namespace YamlTypes.Program

def onDisk? (location : Location) : IO (Option Entry) := do
  try
    let file ← IO.FS.realPath (Path.ofNames true location).text
    if ← file.isDir then return some .directory
    return some (.file (← IO.FS.readBinFile file).toList)
  catch _ => return none

/-- The picture with everything on the way along a path. -/
def fetch (w : Workspace) (path : Path) : IO Workspace := do
  let mut tree := w.tree
  let mut here := w.origin path
  if (FileTree.badPath? path).isNone then
    for segment in FileTree.segments path do
      match tree.step here segment with
      | .error _ => break
      | .ok there =>
        here := there
        if (tree.get? here).isNone then
          if let some entry ← onDisk? here then tree := tree.set here entry
  return { w with tree }

/-- Whether a file matters to the search below a directory. -/
def isRelevant (name : String) : Bool :=
  Discovery.isYamlName name || Discovery.endsIn Declaration.suffix name

/-- The picture with the directories below a location and the files that matter. -/
partial def fetchBelow (location : Location) (w : Workspace) : IO Workspace := do
  let mut w := w
  let directory ← IO.FS.realPath (Path.ofNames true location).text
  for entry in ← directory.readDir do
    let name := entry.fileName
    let there := location ++ [name]
    if !Discovery.startsWithPoint name then
      let isDirectory ← entry.path.isDir
      if isDirectory || isRelevant name then
        if let some found ← onDisk? there then w := { w with tree := w.tree.set there found }
      if isDirectory then w ← fetchBelow there w
  return w

def picture (command : Command) (w : Workspace) : IO Workspace := do
  let mut w := w
  for path in command.input?.toList ++ command.output?.toList do
    w ← fetch w path
  match command with
  | .generate directory .. =>
    w ← fetch w directory
    match w.locate directory with
    | .ok location =>
      if w.tree.get? location = some .directory then w ← fetchBelow location w
    | .error _ => pure ()
  | .module (some input) _ true .. => w ← fetch w ⟨Declaration.pathText input.text⟩
  | _ => pure ()
  return w

/-- Run a command until nothing that it needs is missing from the picture. -/
partial def settle (command : Command) (stdin : List UInt8) (w : Workspace) :
    IO (Command.Outcome × Workspace × Workspace) := do
  let (outcome, after) := command.run stdin w
  match outcome.failure.bind Command.Failure.missing? with
  | none => return (outcome, w, after)
  | some path =>
    let extended ← fetch w path
    if extended.tree.entries.length = w.tree.entries.length then return (outcome, w, after)
    else settle command stdin extended

def store (before after : Workspace) : IO Unit := do
  for (location, entry) in after.tree.entries do
    match entry with
    | .directory => pure ()
    | .file bytes =>
      if before.tree.get? location ≠ some entry then
        IO.FS.writeBinFile (Path.ofNames true location).text ⟨bytes.toArray⟩

/-- The bytes of a stream up to its end. -/
partial def readAll (stream : IO.FS.Stream) (bytes : ByteArray) : IO ByteArray := do
  let block ← stream.read 65536
  if block.isEmpty then return bytes else readAll stream (bytes ++ block)

def report (outcome : Command.Outcome) : IO UInt32 := do
  let output ← IO.getStdout
  output.putStr outcome.output
  output.flush
  if let some failure := outcome.failure then
    let cause := (failure.cause?.map ("\n\nCaused by:\n    " ++ ·)).getD ""
    IO.eprintln ("Error: " ++ failure.message ++ cause)
  return UInt32.ofNat outcome.status

def run (arguments : List String) : IO UInt32 := do
  let directory := Path.names ⟨(← IO.currentDir).toString⟩
  let w : Workspace := ⟨({} : FileTree).makeDirectories directory, directory⟩
  match Command.read arguments with
  | .error _ => report (Command.runArguments arguments [] w).1
  | .ok command =>
    let stdin ←
      if command.readsStandardInput then readAll (← IO.getStdin) ByteArray.empty
      else pure ByteArray.empty
    let (outcome, before, after) ← settle command stdin.toList (← picture command w)
    store before after
    report outcome

end YamlTypes.Program

def main (arguments : List String) : IO UInt32 := YamlTypes.Program.run arguments
