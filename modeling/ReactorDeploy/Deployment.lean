import ReactorDeploy.Board
import ReactorDeploy.Config.Layers
import ReactorDeploy.Manifest
import ReactorDeploy.Source
import ReactorDeploy.Workspace

/-!
# Deployments

A deployment is everything that the artifacts of one unit depend on: its place in the application,
its platform and options, its network, and where its texts come from.
-/

namespace ReactorDeploy

/-- The file names of a unit's system configuration. -/
inductive ConfigLayout where
  /-- One file, which a workspace file is laid over. -/
  | combined (file : String)
  /-- A generated file, beside which the build reads one of the user's. -/
  | split (generated userOverride : String)
  deriving DecidableEq, Repr

namespace ConfigLayout

/-- The name of the generated file. -/
def generatedFile : ConfigLayout → String
  | .combined file => file
  | .split generated _ => generated

/-- The name of the user's file beside it, if there is one. -/
def userOverride? : ConfigLayout → Option String
  | .combined _ => none
  | .split _ userOverride => some userOverride

end ConfigLayout

/-- The network that a unit is part of. -/
inductive Network where
  /-- None: the unit is an application by itself. -/
  | isolated
  /-- TCP on one host. -/
  | loopback
  /-- The constrained transport, with an address of its own. -/
  | ipv6 (address : Net.Ipv6)
  deriving DecidableEq, Repr

/-- The address of a unit, if it has one. -/
def Network.address? : Network → Option Net.Ipv6
  | .ipv6 address => some address
  | _ => none

/-- The address that units on one host have. -/
def loopbackIpv4 : String :=
  "127.0.0.1"

/-- What the artifacts of one unit depend on. -/
structure Deployment where
  app : String
  mainName : String
  options : TargetOptions
  role : Role
  platform : Platform
  sizing : QueueSizes
  network : Network
  layout : ConfigLayout
  /-- The directory that the unit is generated into. -/
  projectRoot : String
  workspace : Workspace
  boards : Board.Table
  order : Config.LayerOrder

namespace Deployment

/-- The name of the federate that the unit is, if it is one. -/
def federateName? (u : Deployment) : Option String :=
  u.role.federate?.map Federate.name

/-- The project name of the unit. -/
def projectName (u : Deployment) : String :=
  u.role.projectName u.mainName

/-- The name of the executable that a native build makes. -/
def nativeTarget (u : Deployment) : String :=
  match u.federateName? with
  | some federate => u.app ++ "_" ++ federate
  | none => u.app

/-- The board of this unit alone. -/
def federateBoard? (u : Deployment) : Option String :=
  u.role.federate?.bind Federate.boardName?

/-- The board of the unit: its own, or else that of the application. -/
def selectedBoard? (u : Deployment) : Option String :=
  u.federateBoard?.or u.options.boardName?

/-- What the board of the unit needs, if it needs anything. -/
def boardConfig? (u : Deployment) : Option Config.Fragment :=
  u.boards.configFor? u.selectedBoard?

/-- The entry point of the unit. -/
def entryPoint (u : Deployment) (style : EntryStyle) : EntryPoint where
  style
  mainName := u.mainName
  sizing := u.sizing
  federate := u.federateName?

end Deployment

end ReactorDeploy
