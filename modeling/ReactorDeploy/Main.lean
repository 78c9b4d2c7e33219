import ReactorDeploy.Command.Reach

/-!
# The program

Takes the part of the file system that a command reaches into a file tree, runs the command on it,
and puts what the command did to the tree back into the file system. All that the command decides is
decided by `ReactorDeploy.Command.run`.
-/

namespace ReactorDeploy.Program

/-- Takes what stands at a location into a tree. Symbolic links are followed. -/
def takeLocation (t : Files.Tree) (l : Files.Location) : IO Files.Tree := do
  let path := (← IO.currentDir) / Files.locationText l
  if l.isEmpty then return t
  else if ← path.isDir then return t.put l .directory
  else if ← path.pathExists then
    return t.put l (.file { content := ← IO.FS.readBinFile path })
  else return t

/-- Takes everything below a location into a tree. A symbolic link below it counts as a file, so
that what it leads to is left alone. -/
partial def takeBelow (t : Files.Tree) (l : Files.Location) : IO Files.Tree := do
  let path := (← IO.currentDir) / Files.locationText l
  if !(← path.isDir) then return t
  let mut t := t
  for entry in ← path.readDir do
    let inner := l ++ [entry.fileName]
    match (← entry.path.symlinkMetadata).type with
    | .dir => t ← takeBelow (t.put inner .directory) inner
    | .file => t := t.put inner (.file { content := ← IO.FS.readBinFile entry.path })
    | _ => t := t.put inner (.file { content := .empty })
  return t

/-- Takes a region into a tree. -/
def takeRegion (cwd : Files.Location) (t : Files.Tree) (region : Files.Region) :
    IO Files.Tree := do
  let p := Files.Path.ofString region.path
  let t ← (p.locations cwd).foldlM takeLocation t
  match region with
  | .place _ => return t
  | .whole _ => takeBelow t (p.goal cwd)

/-- Makes a change to the file system. -/
def apply (change : Files.Change) : IO Unit := do
  let here := ← IO.currentDir
  match change with
  | .makeDirectory l => IO.FS.createDir (here / Files.locationText l)
  | .writeFile l content => IO.FS.writeBinFile (here / Files.locationText l) content
  | .allowExecution l =>
    IO.setAccessRights (here / Files.locationText l)
      ⟨⟨true, true, true⟩, ⟨true, false, true⟩, ⟨true, false, true⟩⟩
  | .removeFile l => IO.FS.removeFile (here / Files.locationText l)
  | .removeDirectory l => IO.FS.removeDir (here / Files.locationText l)

/-- The working directory as a location. -/
def workingDirectory : IO Files.Location := do
  return (Files.Path.ofString (← IO.currentDir).toString).goal []

/-- Runs a command line in the working directory, and gives the exit code. -/
def run (args : List String) : IO UInt32 := do
  let cwd ← workingDirectory
  let around ← (Command.manifestReach cwd).foldlM (takeRegion cwd) ⟨[]⟩
  let before ← (Command.reach around cwd args).foldlM (takeRegion cwd) around
  let outcome := Command.run before cwd args
  (before.changes outcome.tree).forM apply
  IO.print outcome.stdout
  IO.eprint outcome.stderr
  return outcome.exitCode.toUInt32

end ReactorDeploy.Program

/-- Runs the program. -/
def main (args : List String) : IO UInt32 :=
  ReactorDeploy.Program.run args
