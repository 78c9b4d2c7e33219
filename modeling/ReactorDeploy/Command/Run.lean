import ReactorDeploy.Command.Arguments
import ReactorDeploy.Command.Project
import ReactorDeploy.Command.Targets
import ReactorDeploy.Manifest.Check
import ReactorDeploy.Report

/-!
# Running commands

What each command prints, and what it does to the file tree. Nothing is written before everything
has been composed, so a generation that fails leaves the tree as it was unless writing itself is
what fails.
-/

namespace ReactorDeploy.Command

/-- What a command leaves behind: its output, and the file tree. -/
structure Outcome where
  exitCode : Nat
  stdout : String
  stderr : String
  tree : Files.Tree

/-- Why a command fails. -/
inductive Failure where
  | noProject
  | loading (path : String) (cause : Project.LoadError)
  | invalid (cause : Manifest.Invalid)
  | nothingGenerated (cause : Manifest.Invalid)
  | generating (project : String) (cause : GenerationError)
  | writing (directory : String) (cause : WriteError)
  | initializing (cause : Project.InitError)
  | describing (cause : Targets.DescribeError)
  | removing (directory : String) (cause : Files.FileError)
  deriving DecidableEq, Repr

/-- What a failure says. The cause of a failure to write is given twice, by the failure itself and
as its cause. -/
def Failure.message : Failure → String
  | .noProject => "no ucgen.toml found (run `ucgen init` first)"
  | .loading path cause => "loading " ++ path ++ ": " ++ cause.message
  | .invalid cause => cause.message
  | .nothingGenerated cause => "nothing generated: " ++ cause.message
  | .generating project cause => "generating '" ++ project ++ "': " ++ cause.message
  | .writing directory cause =>
    "writing artifacts below " ++ directory ++ ": writing " ++ cause.path ++ ": " ++
      cause.cause.message ++ ": " ++ cause.cause.message
  | .initializing cause => cause.message
  | .describing cause => cause.message
  | .removing directory cause => "removing " ++ directory ++ ": " ++ cause.message

namespace Outcome

/-- A command has done its work, with some notes for the user. -/
def success (t : Files.Tree) (notes stdout : String) : Outcome :=
  ⟨0, stdout, notes, t⟩

/-- A command has failed, with some notes for the user before the failure itself. -/
def failure (t : Files.Tree) (notes : String) (e : Failure) : Outcome :=
  ⟨1, "", notes ++ "error: " ++ e.message ++ "\n", t⟩

end Outcome

/-- The lines about the problems of a manifest. -/
def problemNotes (problems : List Problem) : String :=
  linesText (problems.map fun p => p.severity.name ++ ": " ++ p.display)

/-- The manifest of the project, with the options of the command line, and the project's
directory. -/
def loadProject (t : Files.Tree) (cwd : Files.Location) (overrides : Overrides) :
    Except Failure (Manifest × String) :=
  match Project.find t cwd with
  | .error (path, e) => .error (.loading path e)
  | .ok none => .error .noProject
  | .ok (some (m, directory)) => .ok (overrides.apply m, directory)

/-- The directory that the artifacts of a project are written below: `out` in the project's
directory, unless another one is asked for. -/
def outputRoot (directory : String) (out : Option String) : String :=
  Files.Path.join directory (out.getD "out")

/-- The directory that the user's files are taken from: the project's, unless another one is asked
for. -/
def workspaceRoot (directory : String) (workspace : Option String) : String :=
  Files.Path.join directory (workspace.getD ".")

/-- Generates the artifacts of a project from a file tree, without writing any. -/
def composeProject (t : Files.Tree) (cwd : Files.Location) (m : Manifest)
    (root workspace : String) : Except GenerationError GenerationOutput :=
  (generate {} (.forManifest m .fresh)
    { manifest := m
      workspace := .ofDirectory t cwd workspace
      outputRoot := root }).1

/-- Generates the artifacts of the project and writes them. -/
def runGenerate (t : Files.Tree) (cwd : Files.Location) (out workspace : Option String)
    (overrides : Overrides) (json : Bool) : Outcome :=
  match loadProject t cwd overrides with
  | .error e => .failure t "" e
  | .ok (m, directory) =>
    match m.check with
    | .error e => .failure t (problemNotes e.problems) (.nothingGenerated e)
    | .ok warnings =>
      let notes := problemNotes warnings
      let root := outputRoot directory out
      match composeProject t cwd m root (workspaceRoot directory workspace) with
      | .error e => .failure t notes (.generating m.name e)
      | .ok output =>
        match output.artifacts.writeAll t cwd root with
        | (.error e, t) => .failure t notes (.writing root e)
        | (.ok _, t) =>
          let report := Report.ofOutput m.name output
          .success t notes (if json then report.toJson.render ++ "\n" else report.render)

/-- Checks the manifest of the project. -/
def runCheck (t : Files.Tree) (cwd : Files.Location) (overrides : Overrides) : Outcome :=
  match loadProject t cwd overrides with
  | .error e => .failure t "" e
  | .ok (m, _) =>
    match m.check with
    | .error e => .failure t (problemNotes e.problems) (.invalid e)
    | .ok warnings =>
      let verdict :=
        if warnings.isEmpty then ": ok\n"
        else ": ok with " ++ toString warnings.length ++ " warning(s)\n"
      .success t (problemNotes warnings) (m.name ++ verdict)

/-- Makes a new project. -/
def runInit (t : Files.Tree) (cwd : Files.Location) (name : String) : Outcome :=
  match Project.init t cwd name with
  | (.error e, t) => .failure t "" (.initializing e)
  | (.ok (), t) =>
    .success t "" (linesText
      (("Created project '" ++ name ++ "'") ::
        (Project.newFiles name).map fun file => "  " ++ name ++ "/" ++ file.1))

/-- Removes what was generated for the project, or below the working directory if there is no
project. -/
def runClean (t : Files.Tree) (cwd : Files.Location) (out : Option String) : Outcome :=
  match Project.find t cwd with
  | .error (path, e) => .failure t "" (.loading path e)
  | .ok project =>
    let directory := match project with
      | some (_, directory) => directory
      | none => Files.locationText cwd
    let root := outputRoot directory out
    let p := Files.Path.ofString root
    if t.isPresent cwd p then
      match t.removeDirectories cwd p with
      | (.error e, t) => .failure t "" (.removing root e)
      | (.ok (), t) => .success t "" ("Removed " ++ root ++ "\n")
    else .success t "" ("Already clean: " ++ root ++ " does not exist\n")

/-- Describes a platform. -/
def runDescribe (t : Files.Tree) (name : String) (format : Option String) : Outcome :=
  match Targets.describe name format with
  | .error e => .failure t "" (.describing e)
  | .ok text => .success t "" text

/-- Does what the program was told to do. -/
def Action.run (t : Files.Tree) (cwd : Files.Location) : Action → Outcome
  | .init name => runInit t cwd name
  | .generate out workspace overrides json => runGenerate t cwd out workspace overrides json
  | .check overrides => runCheck t cwd overrides
  | .listTargets => .success t "" Targets.listing
  | .describeTarget name format => runDescribe t name format
  | .clean out => runClean t cwd out

/-- The line about the version of the program. -/
def versionText : String :=
  "ucgen 0.1.0\n"

/-- How the program is used. -/
def usageText : String :=
  linesText
    ["Platform artifact generator for reactor programs",
      "",
      "Usage: ucgen [OPTIONS] <COMMAND>",
      "",
      "Commands:",
      "  init      Create a new project",
      "  generate  Generate build descriptors and system configuration",
      "  check     Validate the project manifest",
      "  target    Inspect target platforms",
      "  clean     Remove generated artifacts",
      "  help      Print this message or the help of the given subcommand(s)",
      "",
      "Options:",
      "  -v, --verbose...  Increase log verbosity (-v info, -vv debug)",
      "  -h, --help        Print help",
      "  -V, --version     Print version"]

/-- Runs the program with a command line, in a working directory of a file tree. -/
def run (t : Files.Tree) (cwd : Files.Location) (args : List String) : Outcome :=
  match parse args with
  | .ok action => action.run t cwd
  | .error .help => .success t "" usageText
  | .error .version => .success t "" versionText
  | .error .refused => ⟨2, "", usageText, t⟩

end ReactorDeploy.Command
