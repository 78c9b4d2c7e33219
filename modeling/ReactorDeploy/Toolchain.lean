import ReactorDeploy.Deployment.Native
import ReactorDeploy.Deployment.Zephyr

/-!
# Toolchains

Which generators make the artifacts of a unit, how its configuration is laid out, and what a build
driver may expect of it. A registry assigns toolchains to platforms; a platform without an entry
takes the fallback, usually the common native path.
-/

namespace ReactorDeploy

/-- What a build driver may expect of a generated unit. -/
structure BuildPlan where
  nativeBuildFiles : Bool
  cleanBuildDirectory : Bool
  installTarget : Bool
  deriving DecidableEq, Repr

namespace BuildPlan

/-- The plan of the common native path. -/
def native : BuildPlan :=
  ⟨true, false, true⟩

/-- The plan of a unit that the tooling of its operating system builds. -/
def rtosTooling : BuildPlan :=
  ⟨false, true, false⟩

end BuildPlan

/-- What makes some of the artifacts of a unit. -/
inductive Generator where
  | entryPoint (style : EntryStyle)
  | nativeBuild (build : NativeBuild)
  | zephyr
  deriving DecidableEq, Repr

namespace Generator

/-- The name of a generator. -/
def name : Generator → String
  | .entryPoint .plain => "main"
  | .entryPoint .freeRtosTask => "main-freertos"
  | .entryPoint .espIdfApp => "main-esp-idf"
  | .nativeBuild b => b.name
  | .zephyr => "zephyr"

/-- The artifacts that a generator makes for a unit, in order. -/
def artifacts (g : Generator) (u : Deployment) : List Artifact :=
  match g with
  | .entryPoint style => [{ path := EntryPoint.path, content := (u.entryPoint style).render }]
  | .nativeBuild b => b.artifacts u
  | .zephyr => Zephyr.artifacts u

end Generator

/-- The generators of a platform, and what goes with them. -/
structure Toolchain where
  platform : Platform
  entry : EntryStyle
  native : Option NativeBuild
  /-- Whether the unit is generated for the tooling of Zephyr. -/
  zephyr : Bool
  layout : ConfigLayout
  plan : BuildPlan
  deriving DecidableEq, Repr

namespace Toolchain

/-- The common native path. -/
def common (platform : Platform) : Toolchain where
  platform
  entry := .plain
  native := some (.ofTooling .cmake)
  zephyr := false
  layout := .combined "lf.conf"
  plan := .native

/-- The common native path with a FreeRTOS task for the program. -/
def freeRtos (platform : Platform) : Toolchain :=
  { common platform with entry := .freeRtosTask }

/-- A native build with the tooling of ESP-IDF. -/
def espIdf (platform : Platform) : Toolchain :=
  { common platform with
    entry := .espIdfApp
    native := some (.ofTooling .espIdf)
    layout := .combined "sdkconfig.defaults" }

/-- The common native path with the configuration file of RIOT. -/
def riot (platform : Platform) : Toolchain :=
  { common platform with layout := .combined "app.config" }

/-- The tooling of Zephyr. -/
def zephyrTooling (platform : Platform) : Toolchain where
  platform
  entry := .plain
  native := none
  zephyr := true
  layout := .split "prj_lf.conf" "prj.conf"
  plan := .rtosTooling

/-- The generators, in the order in which they run. -/
def generators (t : Toolchain) : List Generator :=
  .entryPoint t.entry :: (t.native.toList.map .nativeBuild ++ if t.zephyr then [.zephyr] else [])

end Toolchain

/-- The toolchains that a registry can assign. -/
inductive ToolchainKind where
  | common
  | freeRtos
  | espIdf
  | riot
  | zephyr
  deriving DecidableEq, Repr

/-- The toolchain of a kind for a platform. -/
def ToolchainKind.toolchain : ToolchainKind → Platform → Toolchain
  | .common => .common
  | .freeRtos => .freeRtos
  | .espIdf => .espIdf
  | .riot => .riot
  | .zephyr => .zephyrTooling

/-- The toolchains assigned to platforms. -/
structure Registry where
  /-- The assignments, of which the first one for a platform counts. -/
  entries : List (Platform × ToolchainKind) := []
  /-- The toolchain of a platform without an assignment. -/
  fallback : ToolchainKind := .common
  deriving DecidableEq, Repr

namespace Registry

/-- The registry with a toolchain assigned to a platform, in the place of an earlier one. -/
def register (r : Registry) (platform : Platform) (kind : ToolchainKind) : Registry :=
  { r with entries := (platform, kind) :: r.entries }

/-- The registry of the platforms known from the start. -/
def builtin : Registry where
  entries := [(.freeRtos, .freeRtos), (.espIdf, .espIdf), (.zephyr, .zephyr), (.riot, .riot)]
  fallback := .common

/-- Whether a platform has an assignment. -/
def isRegistered (r : Registry) (platform : Platform) : Bool :=
  (r.entries.lookup platform).isSome

/-- The toolchain of a platform, which is resolved first. -/
def toolchainFor (r : Registry) (platform : Platform) : Toolchain :=
  let platform := platform.resolve .auto
  ((r.entries.lookup platform).getD r.fallback).toolchain platform

end Registry

end ReactorDeploy
