import ReactorDeploy.Json
import ReactorDeploy.Source
import ReactorDeploy.Toml.Printer
import ReactorDeploy.Toolchain

/-!
# Platforms, listed and described

What a user can ask about platforms: which ones there are, and how units are generated for one of
them, for reading, as TOML or as JSON.
-/

namespace ReactorDeploy.Targets

/-- A text with blanks behind it up to the given width. -/
def padRight (width : Nat) (s : String) : String :=
  s ++ String.ofList (List.replicate (width - s.length) ' ')

/-- The list of platforms, and of boards with configuration of their own. -/
def listing : String :=
  linesText <|
    ["Built-in platforms:", ""] ++
    (Platform.concrete.map fun p => "  " ++ padRight 12 p.name ++ " " ++ p.description) ++
    ["", "Boards with extra configuration:"] ++
    (Board.builtin.knownBoards.map fun b => "  " ++ b) ++
    ["", "Use 'ucgen target describe <name>' for details."]

/-- How units are generated for a platform. -/
structure Summary where
  toolchain : Toolchain
  registered : Bool
  deriving DecidableEq, Repr

namespace Summary

/-- The summary of a platform, which is resolved first. -/
def ofPlatform (r : Registry) (platform : Platform) : Summary :=
  let toolchain := r.toolchainFor platform
  ⟨toolchain, r.isRegistered toolchain.platform⟩

/-- The names of the generators. -/
def generatorNames (s : Summary) : List String :=
  s.toolchain.generators.map Generator.name

/-- The fields of a summary under their names in documents. -/
def fields (s : Summary) : List (String × Toml.Plain) :=
  let t := s.toolchain
  [("name", .text t.platform.name),
    ("description", .text t.platform.description),
    ("build-system-name", .text t.platform.buildName),
    ("registered", .truth s.registered),
    ("generators", .texts s.generatorNames),
    ("system-config", .text t.layout.generatedFile)] ++
  (t.layout.userOverride?.toList.map fun file => ("user-override", Toml.Plain.text file)) ++
  [("native-build-files", .truth t.plan.nativeBuildFiles),
    ("clean-build-directory", .truth t.plan.cleanBuildDirectory),
    ("install-target", .truth t.plan.installTarget)]

/-- A summary as TOML. -/
def toToml (s : Summary) : String :=
  Toml.renderBlocks [⟨none, s.fields⟩]

/-- A field as JSON. -/
def fieldJson : Toml.Plain → Json
  | .text s => .text s
  | .number n => .number n
  | .truth b => .truth b
  | .texts items => .list (items.map .text)

/-- A summary as JSON. -/
def toJson (s : Summary) : String :=
  (Json.object (s.fields.map fun (key, value) => (key, fieldJson value))).render ++ "\n"

/-- The word for a truth value. -/
def word (b : Bool) : String :=
  if b then "true" else "false"

/-- A summary for reading. -/
def render (s : Summary) : String :=
  let t := s.toolchain
  linesText <|
    ["=== Platform: " ++ t.platform.name ++ " ===",
      t.platform.description,
      "",
      "  PLATFORM:            " ++ t.platform.buildName,
      "  Generators:          " ++ ", ".intercalate s.generatorNames,
      "  System config:       " ++ t.layout.generatedFile] ++
    (t.layout.userOverride?.toList.map fun file => "  User override:       " ++ file) ++
    ["  Native build files:  " ++ word t.plan.nativeBuildFiles,
      "  Clean build dir:     " ++ word t.plan.cleanBuildDirectory,
      "  Install target:      " ++ word t.plan.installTarget] ++
    if s.registered then [] else ["  (common native path)"]

end Summary

/-- Why a platform cannot be described. -/
inductive DescribeError where
  | unknownPlatform (name : String)
  | unknownFormat (format : String)
  deriving DecidableEq, Repr

/-- What is said about a platform that cannot be described. -/
def DescribeError.message : DescribeError → String
  | .unknownPlatform name =>
    "unknown platform: '" ++ name ++ "'. Use 'ucgen target list' to see available platforms."
  | .unknownFormat format => "unknown format '" ++ format ++ "' (expected toml or json)"

/-- The description of a platform in a format. -/
def describe (name : String) (format : Option String) : Except DescribeError String :=
  match Platform.parse? name with
  | none => .error (.unknownPlatform name)
  | some platform =>
    let summary := Summary.ofPlatform .builtin platform
    match format with
    | none => .ok summary.render
    | some "toml" => .ok summary.toToml
    | some "json" => .ok summary.toJson
    | some other => .error (.unknownFormat other)

end ReactorDeploy.Targets
