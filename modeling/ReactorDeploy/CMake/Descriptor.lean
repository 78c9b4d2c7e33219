import ReactorDeploy.CMake.Document
import ReactorDeploy.Target

/-!
# Build descriptors

The `CMakeLists.txt` of a unit: the commands its build tooling wants first, the identity of the
unit as variables, and the rules that build the generated sources against the runtime.
-/

namespace ReactorDeploy.CMake

/-- What a descriptor says about its unit. -/
structure Identity where
  projectName : String
  mainName : String
  mainTarget : String
  /-- The directory of the unit. The project root is the one above it. -/
  projectRoot : String
  federate : Option String
  logLevel : LogLevel
  deriving DecidableEq, Repr

/-- What a descriptor does beyond building the generated sources. -/
structure BuildOptions where
  /-- Whether it declares the main target, which some tooling does by itself. -/
  createsMainTarget : Bool
  /-- Whether it installs the main target. -/
  installsTarget : Bool
  /-- Whether it points to a Kconfig file beside it. -/
  hasKconfigRoot : Bool
  /-- The tooling that the main target comes from, for the error about its absence. -/
  builder : String
  deriving DecidableEq, Repr

open Document (set ifThen)

/-- The descriptor of a unit, with the given commands ahead of the project's declaration. -/
def descriptor (first : Document) (identity : Identity) (options : BuildOptions) : Document :=
  let mainTarget := var "LF_MAIN_TARGET"
  [.command "cmake_minimum_required" ["VERSION", "3.20.0"]] ++ first ++
  [.command "project" [identity.projectName],
    set "LF_MAIN" identity.mainName,
    set "LF_MAIN_TARGET" identity.mainTarget,
    set "PROJECT_ROOT" (identity.projectRoot ++ "/..")] ++
  (if options.hasKconfigRoot then
    [set "KCONFIG_ROOT" (var "CMAKE_CURRENT_SOURCE_DIR" ++ "/Kconfig")] else []) ++
  [set "LOG_LEVEL" identity.logLevel.constant] ++
  (identity.federate.toList.map fun f => set "FEDERATE" f) ++
  [.blank] ++
  (if options.createsMainTarget then [.command "add_executable" [mainTarget]] else []) ++
  [.command "include" [env "REACTOR_UC_PATH" ++ "/cmake/lfc.cmake"],
    .command "lf_setup" [],
    .command "lf_build_generated_code" [mainTarget, var "CMAKE_CURRENT_SOURCE_DIR"],
    ifThen ("NOT TARGET " ++ mainTarget)
      [.command "message" ["FATAL_ERROR",
        quoted ("Target " ++ mainTarget ++ " was not created by " ++ options.builder)]]] ++
  (if options.installsTarget then
    [.command "install" ["TARGETS", mainTarget, "DESTINATION", var "PROJECT_ROOT" ++ "/bin"]]
    else []) ++
  [.blank]

end ReactorDeploy.CMake
