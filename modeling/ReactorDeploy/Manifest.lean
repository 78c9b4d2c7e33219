import ReactorDeploy.Federate

/-!
# Project manifests

A manifest says what a project is called, how it is targeted and which federates it consists of. A
manifest without federates describes a standalone application.
-/

namespace ReactorDeploy

/-- A project manifest. -/
structure Manifest where
  /-- The application name, which names the native build target and the launch script. -/
  name : String
  /-- The name of the main reactor, if it differs from the application's. -/
  main : Option String := none
  target : TargetOptions := {}
  /-- The queue sizes of every unit that has none of its own. -/
  sizing : QueueSizes := {}
  /-- Whether address numbering goes on from one generation pass to the next. -/
  sharedNumbering : Bool := false
  federates : List Federate := []
  deriving DecidableEq, Repr, Inhabited

namespace Manifest

/-- The name of the main reactor. -/
def mainName (m : Manifest) : String :=
  m.main.getD m.name

/-- Whether the manifest describes a federation. -/
def isFederated (m : Manifest) : Bool :=
  !m.federates.isEmpty

/-- Whether the application name has nothing but blanks in it. -/
def hasBlankName (m : Manifest) : Bool :=
  Text.allBlank m.name

/-- Numbers the federates without an ordinal by their position, starting at `i`. -/
def numberFrom (i : Nat) : List Federate → List Federate
  | [] => []
  | f :: fs => { f with ordinal := some (f.ordinal.getD (UInt64.ofNat i)) } :: numberFrom (i + 1) fs

/-- The manifest with every missing ordinal filled in by the federate's position. -/
def assignOrdinals (m : Manifest) : Manifest :=
  { m with federates := numberFrom 0 m.federates }

/-- The queue sizes of a unit: the federate's own, or else those of the project. -/
def sizingOf (m : Manifest) : Role → QueueSizes
  | .standalone => m.sizing
  | .federate f => f.sizing.getD m.sizing

/-- The federates in the order in which they are generated. -/
def orderedFederates (m : Manifest) : List Federate :=
  m.federates.mergeSort Federate.precedes

end Manifest

end ReactorDeploy
