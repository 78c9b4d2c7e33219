/-!
# Kconfig documents

A Kconfig file that takes in another one and adds a menu of options. The options that every unit on
Zephyr offers are those of the worker that receives its network traffic.
-/

namespace ReactorDeploy.Kconfig

/-- The default of an option, which also gives its type. -/
inductive Default where
  | int (n : Int)
  | str (s : String)
  deriving DecidableEq, Repr

/-- An option of the menu. -/
structure Choice where
  name : String
  prompt : String
  default : Default
  help : String
  deriving DecidableEq, Repr

/-- A Kconfig file. -/
structure Document where
  /-- The file that it takes in. -/
  source : String
  menu : String
  choices : List Choice
  deriving DecidableEq, Repr

/-- The lines for the type and the default of an option. -/
def Default.render (prompt : String) : Default → String
  | .int n => "  int \"" ++ prompt ++ "\"\n  default " ++ toString n ++ "\n"
  | .str s => "  string \"" ++ prompt ++ "\"\n  default \"" ++ s ++ "\"\n"

/-- The written form of an option. -/
def Choice.render (c : Choice) : String :=
  "\nconfig " ++ c.name ++ "\n" ++ c.default.render c.prompt ++ "  help\n    " ++ c.help ++ "\n"

namespace Document

/-- The first option of a name. -/
def choice? (doc : Document) (name : String) : Option Choice :=
  doc.choices.find? fun c => c.name == name

/-- The written form of the file. -/
def render (doc : Document) : String :=
  "source \"" ++ doc.source ++ "\"\n\nmenu \"" ++ doc.menu ++ "\"\n" ++
    String.join (doc.choices.map Choice.render) ++ "\nendmenu\n"

end Document

/-- The options of the worker that receives network traffic. -/
def networkWorker : Document where
  source := "Kconfig.zephyr"
  menu := "Lingua Franca settings"
  choices :=
    [{ name := "LF_TCP_IP_CHANNEL_STACK_SIZE"
       prompt := "TCP/IP channel worker stack size"
       default := .int 4096
       help := "Stack size in bytes allocated for the TCP/IP receive worker thread." },
      { name := "LF_TCP_IP_CHANNEL_STACK_GUARD"
        prompt := "TCP/IP channel worker POSIX guard"
        default := .int 128
        help := "Guard region size (bytes) reserved when the TCP/IP worker uses the POSIX " ++
          "pthread implementation." },
      { name := "LF_TCP_IP_CHANNEL_THREAD_PREEMPT_LEVEL"
        prompt := "TCP/IP channel worker preempt priority"
        default := .int 0
        help := "Preemptible priority level passed to K_PRIO_PREEMPT() for the TCP/IP " ++
          "worker thread." },
      { name := "LF_TCP_IP_CHANNEL_THREAD_NAME"
        prompt := "TCP/IP channel worker thread name"
        default := .str "lf_tcpip_rx"
        help := "Optional thread name used for kernel tracing and debug output." }]

end ReactorDeploy.Kconfig
