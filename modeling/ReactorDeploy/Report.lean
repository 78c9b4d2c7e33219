import ReactorDeploy.Generation
import ReactorDeploy.Json

/-!
# Reports

What a generation pass made, for people or as JSON: each unit with what a build driver may expect
of it, and each artifact with its size and digest.
-/

namespace ReactorDeploy

/-- An artifact in a report. -/
structure ReportedArtifact where
  path : String
  bytes : Nat
  sha256 : String
  executable : Bool
  deriving DecidableEq, Repr

/-- What a generation pass made. -/
structure Report where
  project : String
  federated : Bool
  units : List GeneratedUnit
  artifacts : List ReportedArtifact
  deriving DecidableEq, Repr

namespace Report

/-- The artifact in a report. -/
def ofArtifact (a : Artifact) : ReportedArtifact where
  path := a.path
  bytes := a.content.utf8ByteSize
  sha256 := a.sha256
  executable := a.executable

/-- The report of a pass. -/
def ofOutput (project : String) (out : GenerationOutput) : Report where
  project
  federated := out.units.any fun u => u.federate.isSome
  units := out.units
  artifacts := out.artifacts.artifacts.map ofArtifact

/-! ## As JSON -/

/-- A member for a text that is there, and none otherwise. -/
def optionalMember (key : String) (value : Option String) : List (String × Json) :=
  value.toList.map fun s => (key, .text s)

/-- A unit as JSON. -/
def unitJson (u : GeneratedUnit) : Json :=
  .object <|
    optionalMember "federate" u.federate ++
    [("directory", .text u.directory),
      ("platform", .text u.platform.name),
      ("native_build_files", .truth u.plan.nativeBuildFiles),
      ("clean_build_directory", .truth u.plan.cleanBuildDirectory),
      ("install_target", .truth u.plan.installTarget)] ++
    optionalMember "address" (u.address.map Net.Ipv6.text) ++
    [("artifacts", .list (u.artifacts.map .text))]

/-- An artifact as JSON. -/
def artifactJson (a : ReportedArtifact) : Json :=
  .object
    [("path", .text a.path),
      ("bytes", .number a.bytes),
      ("sha256", .text a.sha256),
      ("executable", .truth a.executable)]

/-- A report as JSON. -/
def toJson (r : Report) : Json :=
  .object
    [("project", .text r.project),
      ("federated", .truth r.federated),
      ("units", .list (r.units.map unitJson)),
      ("artifacts", .list (r.artifacts.map artifactJson))]

/-! ## For people -/

/-- The word for a truth value. -/
def yesNo (b : Bool) : String :=
  if b then "yes" else "no"

/-- A text with blanks before it up to the given width. -/
def padLeft (width : Nat) (s : String) : String :=
  String.ofList (List.replicate (width - s.length) ' ') ++ s

/-- The lines about a unit. -/
def unitLines (u : GeneratedUnit) : List String :=
  ["",
    match u.federate with
    | some name => "--- Federate " ++ name ++ " (" ++ u.platform.name ++ ") ---"
    | none => "--- Application (" ++ u.platform.name ++ ") ---",
    "  Directory: " ++ u.directory] ++
  (u.address.toList.map fun x => "  Address: " ++ x.text) ++
  ["  Native build files: " ++ yesNo u.plan.nativeBuildFiles ++ ", clean build dir: " ++
    yesNo u.plan.cleanBuildDirectory ++ ", install target: " ++ yesNo u.plan.installTarget]

/-- The line about an artifact. -/
def artifactLine (a : ReportedArtifact) : String :=
  "  " ++ String.ofList (a.sha256.toList.take 12) ++ "  " ++ padLeft 6 (toString a.bytes) ++
    " B  " ++ a.path ++ (if a.executable then " (executable)" else "")

/-- A report for people. -/
def render (r : Report) : String :=
  linesText <|
    ["=== Generation Report ===",
      "Project: " ++ r.project,
      "Mode: " ++ if r.federated then "federated" else "standalone"] ++
    r.units.flatMap unitLines ++
    ["", "--- Artifacts (" ++ toString r.artifacts.length ++ ") ---"] ++
    r.artifacts.map artifactLine

end Report

end ReactorDeploy
