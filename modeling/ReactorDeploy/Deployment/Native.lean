import ReactorDeploy.Artifact
import ReactorDeploy.CMake.Descriptor
import ReactorDeploy.Deployment

/-!
# The common native path

The descriptor, the make script and the system configuration of a unit that is built with CMake
directly, and of one that is built with ESP-IDF, whose tooling makes the main target itself.
-/

namespace ReactorDeploy

/-- The tooling of a native build. -/
inductive NativeTooling where
  | cmake
  | espIdf
  deriving DecidableEq, Repr

/-- A native build. -/
structure NativeBuild where
  tooling : NativeTooling
  /-- Whether the descriptor installs the main target. -/
  installsTarget : Bool
  deriving DecidableEq, Repr

open Config.Fragment (flag int str raw)

namespace Deployment

/-! ## System configuration -/

/-- What some platforms need. -/
def platformConfig : Platform → Config.Fragment
  | .freeRtos => [.heading "FreeRTOS", int "LF_MAIN_TASK_STACK_SIZE" mainTaskStackSize]
  | .espIdf =>
    [.heading "ESP-IDF", int "ESP_MAIN_TASK_STACK_SIZE" 16384, int "FREERTOS_HZ" 1000]
  | _ => []

/-- What the network of a unit needs. -/
def networkConfig (u : Deployment) : Config.Fragment :=
  let federate := u.federateName?.getD ""
  match u.network with
  | .isolated => []
  | .loopback =>
    [.heading "Federated networking",
      str "LF_FEDERATE" federate,
      flag "NET_IPV4" true,
      str "NET_CONFIG_MY_IPV4_ADDR" loopbackIpv4]
  | .ipv6 address =>
    [.heading "Federated networking (6LoWPAN)",
      str "LF_FEDERATE" federate,
      flag "NET_IPV6" true,
      flag "NET_IPV4" false,
      str "NET_CONFIG_MY_IPV6_ADDR" address.text,
      int "NET_BUF_RX_COUNT" 16,
      int "NET_BUF_TX_COUNT" 16]

/-- The generated layer of the system configuration. -/
def systemConfig (u : Deployment) : Config.Fragment :=
  [.comment ("System configuration for " ++ u.projectName),
    .comment "This is a generated file, do not edit.",
    .heading "Runtime sizing",
    raw "LF_EVENT_QUEUE_SIZE" (toString u.sizing.events.toNat),
    raw "LF_REACTION_QUEUE_SIZE" (toString u.sizing.reactions.toNat),
    raw "LF_LOG_LEVEL" u.options.logging.value.constant] ++
  platformConfig u.platform ++ u.networkConfig

/-- The system configuration without the user's file. -/
def composedConfig (u : Deployment) : String :=
  Config.compose u.order u.systemConfig u.boardConfig?

end Deployment

namespace NativeBuild

/-- The build that a tooling has unless it is told otherwise: only plain CMake installs. -/
def ofTooling (tooling : NativeTooling) : NativeBuild :=
  ⟨tooling, tooling == .cmake⟩

/-- The name of the build among the generators of a unit. -/
def name (b : NativeBuild) : String :=
  match b.tooling with
  | .cmake => "native-build"
  | .espIdf => "esp-idf-build"

/-- The name of the main target. -/
def mainTarget (b : NativeBuild) (u : Deployment) : String :=
  match b.tooling with
  | .cmake => u.nativeTarget
  | .espIdf => u.projectName ++ ".elf"

/-- The commands that the descriptor starts with. -/
def firstCommands (b : NativeBuild) (u : Deployment) : CMake.Document :=
  CMake.Document.setCache "PLATFORM" u.platform.buildName "Platform to target" ::
  match b.tooling with
  | .cmake =>
    u.selectedBoard?.toList.map fun board =>
      CMake.Document.setCache "BOARD" board "Board to target"
  | .espIdf =>
    (u.selectedBoard?.toList.map fun board => CMake.Document.set "IDF_TARGET" board) ++
    [.command "include" [CMake.env "IDF_PATH" ++ "/tools/cmake/project.cmake"]]

/-- The descriptor of a unit. -/
def descriptor (b : NativeBuild) (u : Deployment) : CMake.Document :=
  CMake.descriptor (b.firstCommands u)
    { projectName := u.projectName
      mainName := u.mainName
      mainTarget := b.mainTarget u
      projectRoot := u.projectRoot
      federate := u.federateName?
      logLevel := u.options.logging.value }
    { createsMainTarget := b.tooling == .cmake
      installsTarget := b.installsTarget
      hasKconfigRoot := false
      builder := match b.tooling with
        | .cmake => "CMake"
        | .espIdf => "ESP-IDF" }

/-- The make script of a unit. -/
def makeScript (b : NativeBuild) (u : Deployment) : MakeScript where
  mainName := u.mainName
  mainTarget := b.mainTarget u
  platform := u.platform
  sizing := u.sizing
  federate := u.federateName?
  mainSource := EntryPoint.path

/-- The artifacts of the build. -/
def artifacts (b : NativeBuild) (u : Deployment) : List Artifact :=
  let file := u.layout.generatedFile
  [{ path := "CMakeLists.txt", content := (b.descriptor u).render },
    { path := MakeScript.path, content := (b.makeScript u).render },
    { path := file, content := Config.mergeOverlay u.composedConfig (u.workspace file) file }]

end NativeBuild

end ReactorDeploy
