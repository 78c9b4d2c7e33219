import ReactorDeploy.Artifact
import ReactorDeploy.CMake.Descriptor
import ReactorDeploy.Deployment
import ReactorDeploy.Kconfig

/-!
# Zephyr

The artifacts of a unit on Zephyr: a descriptor that finds the Zephyr package, the generated
configuration beside which the user's own `prj.conf` applies, a Kconfig file, and copies of the
workspace files that Zephyr reads.
-/

namespace ReactorDeploy.Zephyr

open ReactorDeploy (Deployment)
open Config.Fragment (flag int str)
open CMake.Document (set setCache ifThen ifElse)

/-- The board of a unit for which nobody chose one. -/
def fallbackBoard : String :=
  "nrf52840dk_nrf52840"

/-- The workspace files that are copied as they are. -/
def copiedFiles : List String :=
  ["prj.conf", "app.overlay"]

/-- The name of the Kconfig file. -/
def kconfigFile : String :=
  "Kconfig"

/-- The number that Zephyr's logging has for a log level. -/
def logLevelNumber : LogLevel → Nat
  | .error => 1
  | .warn => 2
  | .info | .log => 3
  | .debug => 4

/-- The board that the descriptor falls back to: the selected one if somebody chose it. -/
def defaultBoard (u : Deployment) : String :=
  let chosen := u.federateBoard?.isSome || u.options.board.userSet
  match u.selectedBoard? with
  | some board => if chosen then board else fallbackBoard
  | none => fallbackBoard

/-! ## The descriptor -/

/-- The variable that collects the places to look for Zephyr in. -/
def hintsVariable : String :=
  "_LF_ZEPHYR_HINTS"

/-- The command that adds a place to look for Zephyr in. -/
def appendHint (hint : String) : CMake.Document :=
  [.command "list" ["APPEND", hintsVariable, hint]]

/-- The commands that the descriptor starts with. -/
def firstCommands (u : Deployment) : CMake.Document :=
  let base := CMake.quoted (CMake.env "ZEPHYR_BASE")
  let vendored := CMake.quoted (CMake.var "CMAKE_CURRENT_SOURCE_DIR" ++ "/deps/zephyr")
  [setCache "PLATFORM" "ZEPHYR" "Platform to target",
    ifThen "NOT DEFINED BOARD" [set "BOARD" (CMake.quoted (defaultBoard u))],
    .comment "Include default lf conf-file.",
    set "CONF_FILE" u.layout.generatedFile] ++
  (match u.layout.userOverride? with
    | some file =>
      [.comment "Include user-provided conf-file, if it exists",
        ifThen ("EXISTS " ++ file) [set "OVERLAY_CONFIG" file]]
    | none => []) ++
  [.command "set" [hintsVariable],
    ifThen ("DEFINED ENV\x7bZEPHYR_BASE\x7d AND EXISTS " ++ base) (appendHint base),
    ifThen ("EXISTS " ++ vendored) (appendHint vendored),
    ifElse hintsVariable
      [.command "find_package" ["Zephyr", "REQUIRED", "HINTS", CMake.var hintsVariable]]
      [.command "find_package" ["Zephyr", "REQUIRED"]],
    .command "zephyr_compile_options" ["-Wno-error=unused-parameter", "-Wno-error=type-limits"],
    .command "zephyr_compile_definitions" ["_GNU_SOURCE"]]

/-- The descriptor of a unit. -/
def descriptor (u : Deployment) : CMake.Document :=
  CMake.descriptor (firstCommands u)
    { projectName := u.projectName
      mainName := u.mainName
      mainTarget := "app"
      projectRoot := u.projectRoot
      federate := u.federateName?
      logLevel := u.options.logging.value }
    { createsMainTarget := false
      installsTarget := false
      hasKconfigRoot := true
      builder := "Zephyr" }

/-! ## Configuration -/

/-- Networking over the POSIX socket interface. -/
def posixNetworking : Config.Fragment :=
  [flag "ETH_NATIVE_POSIX" false,
    flag "NET_DRIVERS" true,
    flag "NETWORKING" true,
    flag "NET_TCP" true]

/-- Stacks and priority of the worker that receives network traffic. -/
def workerDefaults : Config.Fragment :=
  [int "MAIN_STACK_SIZE" 16384,
    int "HEAP_MEM_POOL_SIZE" 1024,
    int "LF_TCP_IP_CHANNEL_STACK_SIZE" 4096,
    int "LF_TCP_IP_CHANNEL_THREAD_PREEMPT_LEVEL" 0,
    str "LF_TCP_IP_CHANNEL_THREAD_NAME" "lf_tcpip_rx"]

/-- The generated layer of an application by itself. -/
def standaloneConfig : Config.Fragment :=
  posixNetworking ++
  [flag "NET_UDP" true,
    flag "NET_IPV4" true,
    flag "NET_SOCKETS" true,
    flag "POSIX_API" true] ++
  workerDefaults

/-- The generated layer of a federate that talks TCP. -/
def tcpConfig : Config.Fragment :=
  posixNetworking ++
  [flag "NET_IPV4" true,
    flag "NET_SOCKETS" true,
    flag "POSIX_API" true] ++
  workerDefaults ++
  [.blank,
    .comment "Network address config",
    flag "NET_CONFIG_SETTINGS" true,
    flag "NET_CONFIG_NEED_IPV4" true,
    str "NET_CONFIG_MY_IPV4_ADDR" loopbackIpv4,
    flag "NET_SOCKETS_OFFLOAD" true,
    flag "NET_NATIVE_OFFLOADED_SOCKETS" true]

/-- The generated layer of a federate on the constrained transport. -/
def sicslowpanConfig (address : Net.Ipv6) (logging : LogLevel) : Config.Fragment :=
  [.comment "Lingua Franca Zephyr configuration file",
    .comment "This is a generated file, do not edit.",
    .blank,
    flag "PRINTK" true,
    flag "USE_SEGGER_RTT" true,
    flag "LOG_BACKEND_RTT" true,
    flag "DEBUG_INFO" true,
    flag "RTT_CONSOLE" true,
    flag "UART_CONSOLE" false,
    flag "LOG_MODE_IMMEDIATE" true,
    flag "LOG" true,
    .heading "Diagnostics and logging",
    int "LOG_DEFAULT_LEVEL" (logLevelNumber logging),
    flag "LOG_PROCESS_THREAD" false,
    .heading "POSIX sockets and networking",
    flag "NETWORKING" true,
    flag "NET_IPV6" true,
    flag "NET_TCP" true,
    flag "NET_SOCKETS" true,
    flag "NET_CONNECTION_MANAGER" true,
    flag "POSIX_API" true,
    .heading "Network buffers",
    int "NET_PKT_RX_COUNT" 8,
    int "NET_PKT_TX_COUNT" 8,
    int "NET_BUF_RX_COUNT" 16,
    int "NET_BUF_TX_COUNT" 16,
    flag "NET_CONTEXT_NET_PKT_POOL" false,
    .heading "IP address options",
    int "NET_IF_UNICAST_IPV6_ADDR_COUNT" 3,
    int "NET_IF_MCAST_IPV6_ADDR_COUNT" 4,
    int "NET_MAX_CONTEXTS" 6,
    int "NET_MAX_CONN" 10,
    .heading "Network shell",
    flag "NET_SHELL" false,
    flag "SHELL" false,
    .heading "Network application options and configs",
    flag "NET_CONFIG_SETTINGS" true,
    flag "NET_CONFIG_NEED_IPV4" false,
    flag "NET_CONFIG_NEED_IPV6" true,
    str "NET_CONFIG_MY_IPV6_ADDR" address.text,
    int "ZVFS_OPEN_MAX" 16,
    int "NET_IF_MAX_IPV6_COUNT" 2,
    .heading "IEEE802.15.4 6LoWPAN",
    flag "BT" false,
    flag "NET_UDP" true,
    flag "NET_IPV4" false,
    int "NET_L2_IEEE802154_FRAGMENT_REASS_CACHE_SIZE" 8,
    flag "NET_L2_IEEE802154_RADIO_CSMA_CA" true,
    flag "NET_L2_IEEE802154_RADIO_ALOHA" false,
    str "NET_CONFIG_MY_IPV4_ADDR" "",
    str "NET_CONFIG_PEER_IPV4_ADDR" "",
    flag "NET_L2_IEEE802154" true,
    flag "NET_L2_IEEE802154_SHELL" false,
    flag "NET_IPV6_ND" false,
    flag "NET_IPV6_NBR_CACHE" false,
    int "NET_CONFIG_IEEE802154_CHANNEL" 26,
    .heading "Additional system configuration",
    int "SYSTEM_WORKQUEUE_STACK_SIZE" 2048,
    int "MAIN_STACK_SIZE" 4096,
    int "LF_TCP_IP_CHANNEL_STACK_SIZE" 2048,
    int "HEAP_MEM_POOL_SIZE" 1024,
    flag "THREAD_CUSTOM_DATA" true,
    .comment "Enable floating point formatting/logging support.",
    .comment "This increases code size, so feel free to disable if not needed.",
    flag "CBPRINTF_FP_SUPPORT" true]

/-- The generated layer of a unit. -/
def generatedConfig (u : Deployment) : Config.Fragment :=
  match u.network with
  | .isolated => standaloneConfig
  | .loopback => tcpConfig
  | .ipv6 address => sicslowpanConfig address u.options.logging.value

/-! ## Artifacts -/

/-- The copies of the workspace files that are there. -/
def copies (workspace : Workspace) : List Artifact :=
  copiedFiles.filterMap fun file => (workspace file).map fun content => { path := file, content }

/-- The artifacts of a unit. -/
def artifacts (u : Deployment) : List Artifact :=
  [{ path := "CMakeLists.txt", content := (descriptor u).render },
    { path := u.layout.generatedFile
      content := Config.compose u.order (generatedConfig u) u.boardConfig? },
    { path := kconfigFile
      content :=
        Config.mergeOverlay Kconfig.networkWorker.render (u.workspace kconfigFile) kconfigFile }] ++
  copies u.workspace

end ReactorDeploy.Zephyr
