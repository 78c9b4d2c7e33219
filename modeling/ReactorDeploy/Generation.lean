import ReactorDeploy.Net.Allocator
import ReactorDeploy.Toolchain

/-!
# Generation

From a manifest to the artifacts of all its units. A standalone application is one unit in a
directory of its own name. A federation has one unit a federate, in the directory of the federate
below that of the application, and a launch script if it runs on the native platform.

On the constrained transport every unit gets an address. All declared addresses are reserved before
the first one is handed out, so that no unit gets an address that another one declares. Numbers are
handed out by an allocator of the pass, or by one that several passes share; a pass that fails
leaves its traces in the latter.
-/

namespace ReactorDeploy

/-- Where the addresses of a pass come from. -/
inductive Numbering where
  /-- A fresh allocator for every pass. -/
  | perPass
  /-- An allocator that passes share. -/
  | shared (pool : Net.SharedAllocator)

/-- The numbering that a manifest asks for, where `processWide` is the allocator that all passes of
a process share. -/
def Numbering.forManifest (m : Manifest) (processWide : Net.SharedAllocator) : Numbering :=
  if m.sharedNumbering then .shared processWide else .perPass

/-- What generation is set up with. -/
structure Setup where
  registry : Registry := .builtin
  boards : Board.Table := Board.builtin
  order : Config.LayerOrder := Config.defaultOrder

/-- What is to be generated. -/
structure Request where
  manifest : Manifest
  workspace : Workspace
  /-- The directory that the artifacts will be written below. -/
  outputRoot : String

/-- Why a pass fails. -/
inductive GenerationError where
  | addressSpaceExhausted (network : UInt64)
  | allocatorPoisoned
  deriving DecidableEq, Repr

/-- What a generation error says. -/
def GenerationError.message : GenerationError → String
  | .addressSpaceExhausted network =>
    "address space " ++ Net.Ipv6.text ⟨network, 0⟩ ++ "/64 exhausted"
  | .allocatorPoisoned => "address allocator lock poisoned by a panicked generation pass"

/-- A unit that has been generated. -/
structure GeneratedUnit where
  federate : Option String
  directory : String
  platform : Platform
  plan : BuildPlan
  address : Option Net.Ipv6
  /-- The paths of the unit's artifacts. -/
  artifacts : List String
  deriving DecidableEq, Repr

/-- The result of a pass. -/
structure GenerationOutput where
  units : List GeneratedUnit := []
  artifacts : ArtifactSet := {}
  deriving DecidableEq, Repr

/-! ## Units -/

/-- A unit that is to be generated. -/
structure PlannedUnit where
  role : Role
  network : Network
  directory : String
  deriving DecidableEq, Repr

namespace PlannedUnit

/-- The platform of a unit. -/
def platform (p : PlannedUnit) (r : Request) : Platform :=
  p.role.resolvePlatform r.manifest.target

/-- The toolchain of a unit. -/
def toolchain (p : PlannedUnit) (s : Setup) (r : Request) : Toolchain :=
  s.registry.toolchainFor (p.platform r)

/-- What the artifacts of a unit depend on. -/
def deployment (p : PlannedUnit) (s : Setup) (r : Request) : Deployment where
  app := r.manifest.name
  mainName := r.manifest.mainName
  options := r.manifest.target
  role := p.role
  platform := p.platform r
  sizing := r.manifest.sizingOf p.role
  network := p.network
  layout := (p.toolchain s r).layout
  projectRoot := Files.Path.join r.outputRoot p.directory
  workspace := r.workspace
  boards := s.boards
  order := s.order

/-- The artifacts of a unit, with paths within it. -/
def artifacts (p : PlannedUnit) (s : Setup) (r : Request) : ArtifactSet :=
  .ofList ((p.toolchain s r).generators.flatMap fun g => g.artifacts (p.deployment s r))

/-- What is known of a unit once it is generated. -/
def report (p : PlannedUnit) (s : Setup) (r : Request) : GeneratedUnit where
  federate := p.role.federate?.map Federate.name
  directory := p.directory
  platform := p.platform r
  plan := (p.toolchain s r).plan
  address := p.network.address?
  artifacts := (p.artifacts s r).paths.map fun path => p.directory ++ "/" ++ path

/-- Adds a unit and its artifacts to an output. -/
def addTo (p : PlannedUnit) (s : Setup) (r : Request) (out : GenerationOutput) :
    GenerationOutput where
  units := out.units ++ [p.report s r]
  artifacts := out.artifacts.extendUnder p.directory (p.artifacts s r)

end PlannedUnit

/-! ## Federations -/

/-- The address of a federate: the first one that it declares, or else the next free one. -/
def addressOf (f : Federate) (a : Net.Allocator) :
    Except Net.Exhausted Net.Ipv6 × Net.Allocator :=
  match f.declaredIpv6? with
  | some x => (.ok x, a)
  | none => a.nextAddress

/-- Gives every federate its address, in order, until none is left. -/
def assignAddresses :
    List Federate → Net.Allocator → Except Net.Exhausted (List Net.Ipv6) × Net.Allocator
  | [], a => (.ok [], a)
  | f :: fs, a =>
    match addressOf f a with
    | (.error e, a) => (.error e, a)
    | (.ok x, a) =>
      let (rest, a) := assignAddresses fs a
      (rest.map (x :: ·), a)

/-- The networks of federates in order. Only on the constrained transport are there any addresses,
and only there is the allocator used. -/
def assignNetworks (constrained : Bool) (fs : List Federate) (a : Net.Allocator) :
    Except Net.Exhausted (List Network) × Net.Allocator :=
  if constrained then
    let (addresses, a) := assignAddresses fs (a.markAllUsed (fs.flatMap Federate.ipv6LikeAddresses))
    (addresses.map fun xs => xs.map .ipv6, a)
  else (.ok (fs.map fun _ => .loopback), a)

/-- The unit of a federate. -/
def PlannedUnit.ofFederate (app : String) (f : Federate) (network : Network) : PlannedUnit where
  role := .federate f
  network
  directory := app ++ "/" ++ f.name

namespace Manifest

/-- The unit of a standalone application. -/
def standaloneUnit (m : Manifest) : PlannedUnit where
  role := .standalone
  network := .isolated
  directory := m.name

/-- Whether a federation gets a launch script: its platform is the native one, and its binaries
are to be made. -/
def launches (m : Manifest) : Bool :=
  m.target.resolvedPlatform == .native && !m.target.noCompile.value

/-- The launch script of a federation. -/
def launchScript (m : Manifest) : LaunchScript :=
  ⟨m.name, m.orderedFederates.map Federate.name⟩

/-- The launch script of a federation as an artifact, if it gets one. -/
def launchArtifact? (m : Manifest) : Option Artifact :=
  if m.launches then
    some { path := m.name ++ "/" ++ m.launchScript.path
           content := m.launchScript.render
           executable := true }
  else none

/-- The units of a federation, whose addresses come from an allocator. -/
def federationUnits (m : Manifest) (a : Net.Allocator) :
    Except Net.Exhausted (List PlannedUnit) × Net.Allocator :=
  let fs := m.orderedFederates
  let (networks, a) := assignNetworks m.target.isConstrained fs a
  (networks.map fun ns => List.zipWith (PlannedUnit.ofFederate m.name) fs ns, a)

end Manifest

/-- The output of planned units, and of a launch script if there is one. -/
def GenerationOutput.ofUnits (s : Setup) (r : Request) (units : List PlannedUnit)
    (launch : Option Artifact) : GenerationOutput :=
  let out := units.foldl (fun out p => p.addTo s r out) {}
  { out with artifacts := out.artifacts.pushAll launch.toList }

/-- Generates a federation with an allocator. -/
def generateFederation (s : Setup) (r : Request) (a : Net.Allocator) :
    Except Net.Exhausted GenerationOutput × Net.Allocator :=
  let (units, a) := r.manifest.federationUnits a
  (units.map fun ps => .ofUnits s r ps r.manifest.launchArtifact?, a)

/-- Generates everything that a manifest describes. The numbering comes back as the pass leaves
it. -/
def generate (s : Setup) (numbering : Numbering) (r : Request) :
    Except GenerationError GenerationOutput × Numbering :=
  if !r.manifest.isFederated then
    (.ok (.ofUnits s r [r.manifest.standaloneUnit] none), numbering)
  else
    let exhausted := fun (e : Net.Exhausted) => GenerationError.addressSpaceExhausted e.network
    match numbering with
    | .perPass => ((generateFederation s r .fresh).1.mapError exhausted, .perPass)
    | .shared pool =>
      let (result, pool) := pool.run (generateFederation s r)
      match result with
      | .error _ => (.error .allocatorPoisoned, .shared pool)
      | .ok output => (output.mapError exhausted, .shared pool)

end ReactorDeploy
