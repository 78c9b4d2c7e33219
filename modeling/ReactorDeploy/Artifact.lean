import ReactorDeploy.Digest.Sha256
import ReactorDeploy.Files.Tree
import ReactorDeploy.Text.Blank

/-!
# Artifacts

The files that generation produces, before they are written anywhere. A set of artifacts keeps them
in the order in which their paths first came up, with one artifact a path: the latest one.

Writing a set creates the directories it needs and stops at the first artifact that cannot be
written. What was written before stays.
-/

namespace ReactorDeploy

/-- A generated file. -/
structure Artifact where
  path : String
  content : String
  executable : Bool := false
  deriving DecidableEq, Repr, Inhabited

/-- The digest of the content, in hexadecimal. -/
def Artifact.sha256 (a : Artifact) : String :=
  Digest.Sha256.hexDigest a.content

/-- Artifacts in the order in which their paths first came up. -/
structure ArtifactSet where
  artifacts : List Artifact := []
  deriving DecidableEq, Repr, Inhabited

/-- Puts an artifact in the place of the one at the same path, or at the end. -/
def Artifact.putInto (a : Artifact) : List Artifact → List Artifact
  | [] => [a]
  | b :: bs => if b.path = a.path then a :: bs else b :: a.putInto bs

/-- The artifact below a directory. Slashes at the end of the directory do not count. -/
def Artifact.under (directory : String) (a : Artifact) : Artifact :=
  let base := Text.stripEnd (· == '/') directory
  if base.isEmpty then a else { a with path := base ++ "/" ++ a.path }

/-- An artifact could not be written. -/
structure WriteError where
  path : String
  cause : Files.FileError
  deriving DecidableEq, Repr

namespace ArtifactSet

/-- Adds an artifact, which replaces one at the same path. -/
def push (s : ArtifactSet) (a : Artifact) : ArtifactSet :=
  ⟨a.putInto s.artifacts⟩

/-- Adds artifacts one after the other. -/
def pushAll (s : ArtifactSet) (artifacts : List Artifact) : ArtifactSet :=
  artifacts.foldl push s

/-- The set of the given artifacts. -/
def ofList (artifacts : List Artifact) : ArtifactSet :=
  pushAll {} artifacts

/-- The artifact at a path. -/
def get? (s : ArtifactSet) (path : String) : Option Artifact :=
  s.artifacts.find? fun a => a.path == path

/-- The number of artifacts. -/
def size (s : ArtifactSet) : Nat :=
  s.artifacts.length

/-- The paths of the artifacts. -/
def paths (s : ArtifactSet) : List String :=
  s.artifacts.map Artifact.path

/-- Adds the artifacts of another set below a directory. -/
def extendUnder (s : ArtifactSet) (directory : String) (other : ArtifactSet) : ArtifactSet :=
  s.pushAll (other.artifacts.map (Artifact.under directory))

end ArtifactSet

/-- Writes an artifact to a path, with the directories above it. -/
def Artifact.write (t : Files.Tree) (cwd : Files.Location) (path : String) (a : Artifact) :
    Except Files.FileError Unit × Files.Tree :=
  let p := Files.Path.ofString path
  match t.makeParents cwd p with
  | (.error e, t) => (.error e, t)
  | (.ok (), t) =>
    match t.writeFile cwd p a.content.toUTF8 with
    | .error e => (.error e, t)
    | .ok t =>
      if a.executable then
        match t.allowExecution cwd p with
        | .error e => (.error e, t)
        | .ok t => (.ok (), t)
      else (.ok (), t)

/-- Writes artifacts below a root directory, in order, and gives the paths written. -/
def Artifact.writeEach (cwd : Files.Location) (root : String) :
    List Artifact → Files.Tree → Except WriteError (List String) × Files.Tree
  | [], t => (.ok [], t)
  | a :: rest, t =>
    let path := Files.Path.join root a.path
    match a.write t cwd path with
    | (.error e, t) => (.error ⟨path, e⟩, t)
    | (.ok (), t) =>
      match writeEach cwd root rest t with
      | (.error e, t) => (.error e, t)
      | (.ok paths, t) => (.ok (path :: paths), t)

/-- Writes the artifacts of a set below a root directory, in order, and gives the paths written. -/
def ArtifactSet.writeAll (s : ArtifactSet) (t : Files.Tree) (cwd : Files.Location) (root : String) :
    Except WriteError (List String) × Files.Tree :=
  Artifact.writeEach cwd root s.artifacts t

end ReactorDeploy
