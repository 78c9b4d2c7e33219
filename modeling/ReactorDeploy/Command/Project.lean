import ReactorDeploy.Files.Tree
import ReactorDeploy.Manifest.Document

/-!
# Projects on disk

A project is a directory with a manifest file in it. The project that a command works on is that of
the nearest directory with such a file, looking upwards from where the command is run; directories
of the same name are passed over. If the nearest manifest cannot be used, no other one is tried.
-/

namespace ReactorDeploy

namespace Project

/-- The name of the manifest file. -/
def manifestFile : String :=
  "ucgen.toml"

/-- The path of the manifest file in a directory. -/
def manifestPath (directory : Files.Location) : String :=
  Files.Path.join (Files.locationText directory) manifestFile

/-- Whether a manifest file stands in a directory. -/
def hasManifest (t : Files.Tree) (directory : Files.Location) : Bool :=
  t.isFile [] (Files.Path.ofString (manifestPath directory))

/-- The nearest directory with a manifest file, the names that lead to the first one to look in
being given last first. -/
def nearestUp (t : Files.Tree) : List String → Option Files.Location
  | [] => if hasManifest t [] then some [] else none
  | name :: above =>
    let directory := (name :: above).reverse
    if hasManifest t directory then some directory else nearestUp t above

/-- The nearest directory with a manifest file, at a location or above it. -/
def nearest? (t : Files.Tree) (cwd : Files.Location) : Option Files.Location :=
  nearestUp t cwd.reverse

/-- Why a manifest file cannot be used. -/
inductive LoadError where
  | unreadable (path : String) (cause : Files.FileError)
  | notThere (path : String)
  | unusable (cause : ManifestError)
  deriving DecidableEq, Repr

/-- What is said about a manifest file that cannot be used. The cause of a failure to read is
given twice, by the failure itself and as its cause. -/
def LoadError.message : LoadError → String
  | .unreadable path cause =>
    "cannot read " ++ path ++ ": " ++ cause.message ++ ": " ++ cause.message
  | .notThere path => "no manifest at " ++ path
  | .unusable cause => cause.message

/-- Reads the manifest that a path leads to. -/
def load (t : Files.Tree) (cwd : Files.Location) (path : String) : Except LoadError Manifest :=
  let p := Files.Path.ofString path
  if !t.isPresent cwd p then .error (.notThere path)
  else match t.readText cwd p with
    | .error e => .error (.unreadable path e)
    | .ok text => (Manifest.parse text).mapError .unusable

/-- The manifest of the project that a location belongs to, and the directory of that project.
There may be none. -/
def find (t : Files.Tree) (cwd : Files.Location) :
    Except (String × LoadError) (Option (Manifest × String)) :=
  match nearest? t cwd with
  | none => .ok none
  | some l =>
    let path := manifestPath l
    match load t [] path with
    | .error e => .error (path, e)
    | .ok m => .ok (some (m, Files.locationText l))

/-- The manifest of a new project. -/
def template (name : String) : String :=
  "[project]\n" ++
  "name = \"" ++ name ++ "\"\n" ++
  "\n" ++
  "[target]\n" ++
  "platform = \"native\"\n" ++
  "logging = \"info\"\n" ++
  "# Federations only: \"tcp\" (default) or \"sicslowpan\".\n" ++
  "# net-interface = \"sicslowpan\"\n" ++
  "\n" ++
  "[sizing]\n" ++
  "events = 8\n" ++
  "reactions = 8\n" ++
  "\n" ++
  "# Declare federates to generate a federation instead of a single application.\n" ++
  "# [[federates]]\n" ++
  "# name = \"sender\"\n" ++
  "# platform = \"zephyr\"\n" ++
  "#\n" ++
  "# [[federates]]\n" ++
  "# name = \"receiver\"\n" ++
  "# board = \"rpi_pico\"\n"

/-- The files of a new project, with their content. -/
def newFiles (name : String) : List (String × String) :=
  [(manifestFile, template name), (".gitignore", "out/\n")]

/-- Why a new project could not be made. -/
inductive InitError where
  | alreadyExists (name : String)
  | directory (cause : Files.FileError)
  | file (name : String) (cause : Files.FileError)
  deriving DecidableEq, Repr

/-- What is said about a new project that could not be made. -/
def InitError.message : InitError → String
  | .alreadyExists name => "directory '" ++ name ++ "' already exists"
  | .directory cause => "creating project directory: " ++ cause.message
  | .file name cause => "writing " ++ name ++ ": " ++ cause.message

/-- Writes files into a directory, one after the other. -/
def writeFiles (cwd : Files.Location) (directory : String) :
    List (String × String) → Files.Tree → Except InitError Unit × Files.Tree
  | [], t => (.ok (), t)
  | (name, content) :: rest, t =>
    let p := Files.Path.ofString (Files.Path.join directory name)
    match t.writeFile cwd p content.toUTF8 with
    | .error e => (.error (.file name e), t)
    | .ok t => writeFiles cwd directory rest t

/-- Makes a new project in the directory of its name. -/
def init (t : Files.Tree) (cwd : Files.Location) (name : String) :
    Except InitError Unit × Files.Tree :=
  let p := Files.Path.ofString name
  if t.isPresent cwd p then (.error (.alreadyExists name), t)
  else match t.makeDirectories cwd p with
    | (.error e, t) => (.error (.directory e), t)
    | (.ok (), t) => writeFiles cwd name (newFiles name) t

end Project

end ReactorDeploy
