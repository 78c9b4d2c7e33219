import ReactorDeploy.Files.Path

/-!
# File trees

A file tree holds directories and files under locations, a location being the list of names that
lead there from the root. Operations on it take paths and fail for the reasons an operating system
has: something is missing, a file stands where a directory is needed or the reverse, a name is
taken or cannot be one. An operation gives its outcome and the tree that it leaves behind, since a
failing one may have changed something already.
-/

namespace ReactorDeploy.Files

/-- A file: its bytes, and whether it may be executed. -/
structure File where
  content : ByteArray
  executable : Bool := false

/-- What stands at a location. -/
inductive Node where
  | directory
  | file (f : File)

/-- The names that lead from the root to a place. -/
abbrev Location := List String

/-- The absolute path of a location. -/
def locationText (l : Location) : String :=
  "/" ++ "/".intercalate l

/-- A tree of directories and files. The root is always a directory. -/
structure Tree where
  entries : List (Location × Node)

/-- Why a file operation fails. -/
inductive FileError where
  | notFound
  | alreadyExists
  | notDirectory
  | isDirectory
  | notEmpty
  | busy
  | invalidArgument
  | nameTooLong
  | nulInName
  | invalidUtf8
  deriving DecidableEq, Repr

/-- What a file error says. -/
def FileError.message : FileError → String
  | .notFound => "No such file or directory (os error 2)"
  | .alreadyExists => "File exists (os error 17)"
  | .notDirectory => "Not a directory (os error 20)"
  | .isDirectory => "Is a directory (os error 21)"
  | .notEmpty => "Directory not empty (os error 39)"
  | .busy => "Device or resource busy (os error 16)"
  | .invalidArgument => "Invalid argument (os error 22)"
  | .nameTooLong => "File name too long (os error 36)"
  | .nulInName => "file name contained an unexpected NUL byte"
  | .invalidUtf8 => "stream did not contain valid UTF-8"

namespace Tree

/-! ## Locations -/

/-- What stands at a location. -/
def node? (t : Tree) (l : Location) : Option Node :=
  if l.isEmpty then some .directory else t.entries.lookup l

/-- Entries with `node` at location `l`. -/
def putEntry (l : Location) (node : Node) : List (Location × Node) → List (Location × Node)
  | [] => [(l, node)]
  | (l', node') :: rest =>
    if l' = l then (l, node) :: rest else (l', node') :: putEntry l node rest

/-- The tree with `node` at location `l`. -/
def put (t : Tree) (l : Location) (node : Node) : Tree :=
  ⟨putEntry l node t.entries⟩

/-- The tree without the entry at location `l`. -/
def erase (t : Tree) (l : Location) : Tree :=
  ⟨t.entries.filter fun e => e.1 != l⟩

/-- The tree without everything below location `l`. -/
def eraseBelow (t : Tree) (l : Location) : Tree :=
  ⟨t.entries.filter fun e => !(l.isPrefixOf e.1 && e.1 != l)⟩

/-! ## Following paths -/

/-- Follows steps from a location. All but the last one have to arrive at directories; what the
last one arrives at, if anything, is left open. -/
def walk (t : Tree) (l : Location) : List Step → Except FileError Location
  | [] => .ok l
  | step :: steps =>
    match t.node? l with
    | none => .error .notFound
    | some (.file _) => .error .notDirectory
    | some .directory =>
      match step with
      | .here => walk t l steps
      | .up => walk t l.dropLast steps
      | .name n => if 255 < n.utf8ByteSize then .error .nameTooLong else walk t (l ++ [n]) steps

/-- Follows a path from a working directory. -/
def follow (t : Tree) (cwd : Location) (p : Path) : Except FileError Location :=
  if p.isEmpty then .error .notFound
  else if p.steps.any Path.hasNul then .error .nulInName
  else if 4096 ≤ p.size then .error .nameTooLong
  else t.walk (if p.absolute then [] else cwd) p.steps

/-- Where a path leads and what stands there. A trailing slash asks for a directory. -/
def stat (t : Tree) (cwd : Location) (p : Path) : Except FileError (Location × Node) := do
  let l ← t.follow cwd p
  match t.node? l with
  | none => .error .notFound
  | some .directory => .ok (l, .directory)
  | some (.file f) => if p.trailingSlash then .error .notDirectory else .ok (l, .file f)

/-- Whether anything stands where a path leads. -/
def isPresent (t : Tree) (cwd : Location) (p : Path) : Bool :=
  match t.stat cwd p with
  | .ok _ => true
  | .error _ => false

/-- Whether a directory stands where a path leads. -/
def isDirectory (t : Tree) (cwd : Location) (p : Path) : Bool :=
  match t.stat cwd p with
  | .ok (_, .directory) => true
  | _ => false

/-- Whether a file stands where a path leads. -/
def isFile (t : Tree) (cwd : Location) (p : Path) : Bool :=
  match t.stat cwd p with
  | .ok (_, .file _) => true
  | _ => false

/-- The bytes of the file that a path leads to. -/
def readBytes (t : Tree) (cwd : Location) (p : Path) : Except FileError ByteArray := do
  match ← t.stat cwd p with
  | (_, .directory) => .error .isDirectory
  | (_, .file f) => .ok f.content

/-- The text of the file that a path leads to. -/
def readText (t : Tree) (cwd : Location) (p : Path) : Except FileError String := do
  match String.fromUTF8? (← t.readBytes cwd p) with
  | some s => .ok s
  | none => .error .invalidUtf8

/-! ## Directories -/

/-- Makes one directory. Its parent has to be there already, and nothing of its name. -/
def makeDirectory (t : Tree) (cwd : Location) (p : Path) : Except FileError Tree := do
  let l ← t.follow cwd p
  match p.steps.getLast? with
  | some (.name _) => if (t.node? l).isSome then .error .alreadyExists else .ok (t.put l .directory)
  | _ => .error .alreadyExists

/-- Makes one directory, after the directories above it where those are missing. A directory that
is there already is as good. -/
def makeDirectoryAfter (above : Tree → Except FileError Unit × Tree) (t : Tree) (cwd : Location)
    (p : Path) : Except FileError Unit × Tree :=
  match t.makeDirectory cwd p with
  | .ok t' => (.ok (), t')
  | .error .notFound =>
    match above t with
    | (.error e, t') => (.error e, t')
    | (.ok (), t') =>
      match t'.makeDirectory cwd p with
      | .ok t'' => (.ok (), t'')
      | .error e => if t'.isDirectory cwd p then (.ok (), t') else (.error e, t')
  | .error e => if t.isDirectory cwd p then (.ok (), t) else (.error e, t)

/-- Makes the directory whose path has the given parts, the last one first, and those above it.
There is none to make for a part that leads nowhere. -/
def makeDirectoriesUp (cwd : Location) (absolute : Bool) :
    List String → Tree → Except FileError Unit × Tree
  | [], t => (.ok (), t)
  | part :: before, t =>
    if Path.isIdle absolute part before then makeDirectoriesUp cwd absolute before t
    else
      makeDirectoryAfter (makeDirectoriesUp cwd absolute before) t cwd
        ⟨absolute, (part :: before).reverse⟩

/-- Makes the directories above a path. -/
def makeParents (t : Tree) (cwd : Location) (p : Path) : Except FileError Unit × Tree :=
  makeDirectoriesUp cwd p.absolute (Path.settle p.absolute p.parts.reverse).tail t

/-- Makes a directory and those above it. An empty path asks for nothing. -/
def makeDirectories (t : Tree) (cwd : Location) (p : Path) : Except FileError Unit × Tree :=
  if p.isEmpty then (.ok (), t)
  else makeDirectoryAfter (fun t => t.makeParents cwd p) t cwd p

/-- Removes one directory, which has to be empty. -/
def removeDirectory (t : Tree) (cwd : Location) (p : Path) : Except FileError Tree := do
  let l ← t.follow cwd p
  match p.steps.getLast? with
  | none => .error .busy
  | some .here => .error .invalidArgument
  | some .up => .error .notEmpty
  | some (.name _) => match t.node? l with
    | none => .error .notFound
    | some (.file _) => .error .notDirectory
    | some .directory => .ok (t.erase l)

/-- Removes a directory with everything in it. The content goes first, and goes even where the
directory itself cannot; one that is gone with its content has been removed. -/
def removeDirectories (t : Tree) (cwd : Location) (p : Path) : Except FileError Unit × Tree :=
  match t.stat cwd p with
  | .error e => (.error e, t)
  | .ok (_, .file _) => (.error .notDirectory, t)
  | .ok (l, .directory) =>
    let t' := t.eraseBelow l
    match t'.removeDirectory cwd p with
    | .ok t'' => (.ok (), t'')
    | .error .notFound => (.ok (), t')
    | .error e => (.error e, t')

/-! ## Files -/

/-- Writes a file. One that is there already keeps its permission to be executed. -/
def writeFile (t : Tree) (cwd : Location) (p : Path) (content : ByteArray) :
    Except FileError Tree := do
  let l ← t.follow cwd p
  match p.steps.getLast? with
  | some (.name _) =>
    if p.trailingSlash then .error .isDirectory
    else match t.node? l with
      | none => .ok (t.put l (.file { content }))
      | some .directory => .error .isDirectory
      | some (.file f) => .ok (t.put l (.file { f with content }))
  | _ => .error .isDirectory

/-- Permits a file to be executed. -/
def allowExecution (t : Tree) (cwd : Location) (p : Path) : Except FileError Tree := do
  match ← t.stat cwd p with
  | (l, .file f) => .ok (t.put l (.file { f with executable := true }))
  | (_, .directory) => .ok t

end Tree

end ReactorDeploy.Files
