import ReactorDeploy.Net.Address
import ReactorDeploy.Target

/-!
# Federates

A federation consists of federates, each with a platform, a board, the network interfaces it
declares and a place in the order of the federation. A deployment unit is one of them, or the whole
of an application that is not a federation.
-/

namespace ReactorDeploy

/-- The sizes of the two queues of a program, which generated text quotes. -/
structure QueueSizes where
  events : UInt64 := 0
  reactions : UInt64 := 0
  deriving DecidableEq, Repr, Inhabited

/-- A network interface that a federate declares. -/
structure Interface where
  /-- The address as the user wrote it. -/
  address : String
  transport : Transport := .ethernet
  deriving DecidableEq, Repr, Inhabited

namespace Interface

/-- Whether the address looks like IPv6. It may still be malformed. -/
def looksLikeIpv6 (i : Interface) : Bool :=
  match Net.Address.parse? (Text.trim i.address) with
  | some address => address.isV6
  | none => i.address.toList.contains ':'

/-- The IPv6 address of the interface, if it is a well-formed one. -/
def ipv6? (i : Interface) : Option Net.Ipv6 :=
  Net.Ipv6.parse? (Text.trim i.address)

end Interface

/-- One federate of a federation. -/
structure Federate where
  name : String
  platform : Platform := .auto
  /-- A board for this federate alone. -/
  board : Option String := none
  /-- The declared interfaces, in declaration order. -/
  interfaces : List Interface := []
  /-- The place in the order of the federation. -/
  ordinal : Option UInt64 := none
  /-- Queue sizes for this federate alone. -/
  sizing : Option QueueSizes := none
  deriving DecidableEq, Repr, Inhabited

namespace Federate

/-- The platform of a federate, that of the application standing in for `auto`. -/
def resolvePlatform (f : Federate) (o : TargetOptions) : Platform :=
  f.platform.resolve o.platform.value

/-- The board of this federate alone, trimmed, unless it is absent or blank. -/
def boardName? (f : Federate) : Option String :=
  f.board.bind Text.nonBlank?

/-- The declared addresses that look like IPv6, trimmed, in declaration order. -/
def ipv6LikeAddresses (f : Federate) : List String :=
  (f.interfaces.filter Interface.looksLikeIpv6).map fun i => Text.trim i.address

/-- The first well-formed IPv6 address that the federate declares. -/
def declaredIpv6? (f : Federate) : Option Net.Ipv6 :=
  f.interfaces.findSome? Interface.ipv6?

/-- Federates stand in the order of their ordinals, a missing one counting as the greatest there
is, and by name where these agree. -/
def precedes (f g : Federate) : Bool :=
  let i := f.ordinal.getD 0xffffffffffffffff
  let j := g.ordinal.getD 0xffffffffffffffff
  i < j || (i == j && f.name ≤ g.name)

end Federate

/-- What a deployment unit is: a whole application, or one federate of a federation. -/
inductive Role where
  | standalone
  | federate (f : Federate)
  deriving DecidableEq, Repr

namespace Role

/-- The federate that the unit is, if it is one. -/
def federate? : Role → Option Federate
  | .standalone => none
  | .federate f => some f

/-- The project name of the unit: that of the main reactor, followed by the federate's. -/
def projectName (role : Role) (mainName : String) : String :=
  match role with
  | .standalone => mainName
  | .federate f => mainName ++ "_" ++ f.name

/-- The platform of the unit, resolved. -/
def resolvePlatform (role : Role) (o : TargetOptions) : Platform :=
  match role with
  | .standalone => o.resolvedPlatform
  | .federate f => f.resolvePlatform o

end Role

end ReactorDeploy
