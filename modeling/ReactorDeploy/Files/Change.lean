import ReactorDeploy.Files.Tree

/-!
# Taking in and putting back parts of a file system

Commands work on a file tree. This module says which locations have to be taken into a tree so that
a path can be followed in it, and what has to be done to a file system so that it becomes the tree
that a command left behind.
-/

namespace ReactorDeploy.Files

/-- A part of a file system. -/
inductive Region where
  /-- What stands where a path leads. -/
  | place (path : String)
  /-- What stands where a path leads, and everything below it. -/
  | whole (path : String)
  deriving DecidableEq, Repr

/-- The path that leads to a region. -/
def Region.path : Region → String
  | .place path => path
  | .whole path => path

/-- The locations from the root down to a location. -/
def lineage (l : Location) : List Location :=
  (List.range (l.length + 1)).map l.take

/-- Where a step leads from a location, whatever stands there. -/
def Step.arrive (l : Location) : Step → Location
  | .here => l
  | .up => l.dropLast
  | .name n => l ++ [n]

/-- The locations that steps lead through, the last one included. -/
def Step.stops (l : Location) : List Step → List Location
  | [] => [l]
  | step :: steps => l :: Step.stops (step.arrive l) steps

/-- Where a path starts that is followed from a working directory. -/
def Path.start (cwd : Location) (p : Path) : Location :=
  if p.absolute then [] else cwd

/-- Where a path leads, whatever stands on the way. -/
def Path.goal (cwd : Location) (p : Path) : Location :=
  p.steps.foldl Step.arrive (p.start cwd)

/-- The locations on the way to a place, from the root on. -/
def Path.locations (cwd : Location) (p : Path) : List Location :=
  let start := p.start cwd
  lineage start ++ Step.stops start p.steps

/-- A change to one location of a file system. -/
inductive Change where
  | makeDirectory (l : Location)
  | writeFile (l : Location) (content : ByteArray)
  | allowExecution (l : Location)
  | removeFile (l : Location)
  | removeDirectory (l : Location)

namespace Tree

/-- What has to be removed where a tree has lost an entry. -/
def removal (after : Tree) (entry : Location × Node) : Option Change :=
  match after.node? entry.1, entry.2 with
  | some _, _ => none
  | none, .directory => some (.removeDirectory entry.1)
  | none, .file _ => some (.removeFile entry.1)

/-- What has to be done where a tree has a new entry, or another file than before. -/
def additions (before : Tree) (entry : Location × Node) : List Change :=
  match entry.2, before.node? entry.1 with
  | .directory, some _ => []
  | .directory, none => [.makeDirectory entry.1]
  | .file f, some (.file g) =>
    (if f.content.data = g.content.data then [] else [.writeFile entry.1 f.content]) ++
    (if f.executable && !g.executable then [.allowExecution entry.1] else [])
  | .file f, _ =>
    .writeFile entry.1 f.content :: if f.executable then [.allowExecution entry.1] else []

/-- The changes that make one tree of another. What lies deeper is removed earlier and made
later. -/
def changes (before after : Tree) : List Change :=
  let depth := fun (entry : Location × Node) => entry.1.length
  let lost := before.entries.mergeSort fun e e' => depth e' ≤ depth e
  let made := after.entries.mergeSort fun e e' => depth e ≤ depth e'
  lost.filterMap (removal after) ++ made.flatMap (additions before)

end Tree

end ReactorDeploy.Files
