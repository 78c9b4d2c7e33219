import ReactorDeploy.Command.Run
import ReactorDeploy.Files.Change

/-!
# The reach of commands

The parts of a file system that a command looks at or changes. A command that works on a project
first has to find it, and which other parts it reaches depends on where the project is.
-/

namespace ReactorDeploy

/-- The workspace files that a toolchain takes in. -/
def Toolchain.workspaceFiles (t : Toolchain) : List String :=
  (if t.native.isSome then [t.layout.generatedFile] else []) ++
  (if t.zephyr then Zephyr.kconfigFile :: Zephyr.copiedFiles else [])

namespace Command

/-- The places where the manifest of the project around a location can be. -/
def manifestReach (cwd : Files.Location) : List Files.Region :=
  (Files.lineage cwd).map fun l => .place (Project.manifestPath l)

/-- The directory of the project that a location belongs to, or the location itself. -/
def projectDirectory (t : Files.Tree) (cwd : Files.Location) : String :=
  Files.locationText ((Project.nearest? t cwd).getD cwd)

/-- The workspace files that generation can take in. -/
def workspaceFiles : List String :=
  (Platform.concrete.flatMap fun p => (Registry.builtin.toolchainFor p).workspaceFiles).eraseDups

/-- The parts that a command reaches, once the manifests around the working directory are known. -/
def Action.reach (t : Files.Tree) (cwd : Files.Location) : Action → List Files.Region
  | .init name =>
    .place name :: (Project.newFiles name).map fun file => .place (Files.Path.join name file.1)
  | .generate out workspace _ _ =>
    let directory := projectDirectory t cwd
    let root := workspaceRoot directory workspace
    .whole (outputRoot directory out) ::
      workspaceFiles.map fun file => .place (Files.Path.join root file)
  | .clean out => [.whole (outputRoot (projectDirectory t cwd) out)]
  | .check _ => []
  | .listTargets => []
  | .describeTarget _ _ => []

/-- The parts that a command line reaches, beyond the manifests. -/
def reach (t : Files.Tree) (cwd : Files.Location) (args : List String) : List Files.Region :=
  match parse args with
  | .ok action => action.reach t cwd
  | .error _ => []

end Command

end ReactorDeploy
