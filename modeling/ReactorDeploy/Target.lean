import ReactorDeploy.Platform
import ReactorDeploy.Text.Blank

/-!
# Target options

The options of a target that decide what is generated for it. Each option carries its value and
whether the user chose that value, since some defaults give way where a choice would not.
-/

namespace ReactorDeploy

/-- A value, and whether the user chose it. -/
structure Tracked (α : Type) where
  value : α
  userSet : Bool
  deriving DecidableEq, Repr

namespace Tracked

variable {α : Type}

/-- A value that the user chose. -/
def user (value : α) : Tracked α :=
  ⟨value, true⟩

/-- A value that holds because nobody chose another. -/
def computed (value : α) : Tracked α :=
  ⟨value, false⟩

/-- The value, if the user chose it. -/
def userValue? (t : Tracked α) : Option α :=
  if t.userSet then some t.value else none

/-- The user's choice, or the given default in its place. -/
def ofChoice (default : α) : Option α → Tracked α
  | some value => user value
  | none => computed default

end Tracked

/-- How much a program logs, from least to most. -/
inductive LogLevel where
  | error
  | warn
  | info
  | log
  | debug
  deriving DecidableEq, Repr, Inhabited

namespace LogLevel

/-- The position of a level, more logging being higher. -/
def rank : LogLevel → Nat
  | .error => 0
  | .warn => 1
  | .info => 2
  | .log => 3
  | .debug => 4

/-- The name of a level in generated text. -/
def upperName : LogLevel → String
  | .error => "ERROR"
  | .warn => "WARN"
  | .info => "INFO"
  | .log => "LOG"
  | .debug => "DEBUG"

/-- The constant that stands for a level in generated text. -/
def constant (level : LogLevel) : String :=
  "LF_LOG_LEVEL_" ++ level.upperName

/-- The name of a level in manifests. -/
def name : LogLevel → String
  | .error => "error"
  | .warn => "warn"
  | .info => "info"
  | .log => "log"
  | .debug => "debug"

/-- The level that a manifest names. -/
def ofName? (s : String) : Option LogLevel :=
  match s with
  | "error" => some .error
  | "warn" => some .warn
  | "info" => some .info
  | "log" => some .log
  | "debug" => some .debug
  | _ => none

/-- A manifest's name for a level reads back as that level. -/
theorem ofName?_name (level : LogLevel) : ofName? level.name = some level := by
  cases level <;> rfl

end LogLevel

/-- The network technology between federates. -/
inductive Transport where
  /-- TCP over IPv4. -/
  | ethernet
  /-- IPv6 over IEEE 802.15.4 radio (6LoWPAN). -/
  | sicslowpan
  deriving DecidableEq, Repr, Inhabited

namespace Transport

/-- The name of a transport in manifests. -/
def name : Transport → String
  | .ethernet => "ethernet"
  | .sicslowpan => "sicslowpan"

/-- The transport that a manifest names, by its name or its alternative name. -/
def ofName? (s : String) : Option Transport :=
  match s with
  | "ethernet" | "tcp" => some .ethernet
  | "sicslowpan" | "6lowpan" => some .sicslowpan
  | _ => none

/-- Whether the transport is the constrained one, whose federates need an IPv6 address each. -/
def isConstrained (t : Transport) : Bool :=
  t == .sicslowpan

/-- A manifest's name for a transport reads back as that transport. -/
theorem ofName?_name (t : Transport) : ofName? t.name = some t := by
  cases t <;> rfl

end Transport

/-- The options of a target. -/
structure TargetOptions where
  /-- The platform of the whole application. -/
  platform : Tracked Platform := .computed .auto
  /-- The board, as the build tooling of the platform names it. -/
  board : Tracked (Option String) := .computed none
  /-- How much the program logs. -/
  logging : Tracked LogLevel := .computed .info
  /-- The transport between federates. -/
  netInterface : Tracked Transport := .computed .ethernet
  /-- Whether to leave the native toolchain alone after generation. -/
  noCompile : Tracked Bool := .computed false
  deriving DecidableEq, Repr, Inhabited

namespace TargetOptions

/-- The board, trimmed, unless it is absent or blank. -/
def boardName? (o : TargetOptions) : Option String :=
  o.board.value.bind Text.nonBlank?

/-- The platform of the whole application, resolved. -/
def resolvedPlatform (o : TargetOptions) : Platform :=
  o.platform.value.resolve .auto

/-- Whether federates talk over the constrained transport. -/
def isConstrained (o : TargetOptions) : Bool :=
  o.netInterface.value.isConstrained

end TargetOptions

end ReactorDeploy
