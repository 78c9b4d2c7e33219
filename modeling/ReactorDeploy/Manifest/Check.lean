import ReactorDeploy.Manifest

/-!
# Checking manifests

What is wrong with a manifest, as a list of issues. Errors block generation: a transport option
without a federation, federate names that are blank, no single path component or taken, and one
IPv6 address declared by two federates. Warnings do not: the constrained transport on a platform
other than Zephyr, and an address on it that is not IPv6.

Names are checked first, over all federates; then each federate is looked at on its own, in order.
-/

namespace ReactorDeploy

/-- How much an issue matters. -/
inductive Severity where
  | error
  | warning
  deriving DecidableEq, Repr

/-- The word for a severity. -/
def Severity.name : Severity → String
  | .error => "error"
  | .warning => "warning"

/-- What can be wrong with a manifest. -/
inductive Problem where
  /-- The transport is chosen although there is no federation. -/
  | transportWithoutFederation
  | emptyFederateName
  | notASinglePathComponent (federate : String)
  | duplicateFederateName (federate : String)
  /-- The constrained transport is used on another platform than Zephyr. -/
  | transportNeedsZephyr (federate : String) (resolved : Platform)
  /-- An address for the constrained transport is not IPv6. -/
  | addressNotIpv6 (federate address : String)
  | addressDeclaredTwice (first second : String) (address : Net.Ipv6)
  deriving DecidableEq, Repr

namespace Problem

/-- How much the problem matters. -/
def severity : Problem → Severity
  | .transportNeedsZephyr .. | .addressNotIpv6 .. => .warning
  | _ => .error

/-- The federate that the problem is with, if it is with one. -/
def federate? : Problem → Option String
  | .notASinglePathComponent f => some f
  | .transportNeedsZephyr f _ => some f
  | .addressNotIpv6 f _ => some f
  | _ => none

/-- What the problem is. -/
def message : Problem → String
  | .transportWithoutFederation => "the net-interface target option requires a federated program"
  | .emptyFederateName => "federate with an empty name"
  | .notASinglePathComponent _ => "not a single path component"
  | .duplicateFederateName f => "duplicate federate name '" ++ f ++ "'"
  | .transportNeedsZephyr _ resolved =>
    "the sicslowpan network interface requires the zephyr platform (resolved to " ++
      resolved.name ++ ")"
  | .addressNotIpv6 _ address =>
    "sicslowpan interface address '" ++ address ++ "' is not a valid IPv6 address"
  | .addressDeclaredTwice first second address =>
    "federates '" ++ first ++ "' and '" ++ second ++ "' both declare address " ++ address.text

/-- The problem in one line, with the federate that it is with. -/
def display (p : Problem) : String :=
  match p.federate? with
  | some f => "federate '" ++ f ++ "': " ++ p.message
  | none => p.message

/-- Whether the problem blocks generation. -/
def isError (p : Problem) : Bool :=
  p.severity == .error

end Problem

/-- Whether a federate name can be the name of a directory within the application's. -/
def isSinglePathComponent (name : String) : Bool :=
  !name.toList.any (fun c => c == '/' || c == '\\') && name != "." && name != ".."

namespace Manifest

/-- The problem of a transport option in a manifest without federates. -/
def transportProblems (m : Manifest) : List Problem :=
  if m.target.netInterface.userSet && !m.isFederated then [.transportWithoutFederation] else []

/-- The problems of names, where `taken` are the good names that came before. -/
def nameProblems (taken : List String) : List String → List Problem
  | [] => []
  | name :: names =>
    if Text.allBlank name then .emptyFederateName :: nameProblems taken names
    else if !isSinglePathComponent name then
      .notASinglePathComponent name :: nameProblems taken names
    else if taken.contains name then .duplicateFederateName name :: nameProblems taken names
    else nameProblems (name :: taken) names

/-- The problem of a federate that the constrained transport does not suit. -/
def platformProblems (o : TargetOptions) (f : Federate) : List Problem :=
  let platform := f.resolvePlatform o
  if o.isConstrained && platform != .zephyr then [.transportNeedsZephyr f.name platform] else []

/-- The problems of the interfaces of a federate. -/
def interfaceProblems (f : Federate) : List Problem :=
  (f.interfaces.filter fun i => i.transport.isConstrained && i.ipv6?.isNone).map fun i =>
    .addressNotIpv6 f.name i.address

/-- The problems of federates one by one, where `declared` holds the addresses declared before,
each with the federate that did so last. -/
def federateProblems (o : TargetOptions) (declared : List (Net.Ipv6 × String)) :
    List Federate → List Problem
  | [] => []
  | f :: fs =>
    let own := platformProblems o f ++ interfaceProblems f
    match f.declaredIpv6? with
    | none => own ++ federateProblems o declared fs
    | some address =>
      let twice := match declared.lookup address with
        | some first => [.addressDeclaredTwice first f.name address]
        | none => []
      own ++ twice ++ federateProblems o ((address, f.name) :: declared) fs

/-- Everything that is wrong with a manifest. -/
def problems (m : Manifest) : List Problem :=
  m.transportProblems ++ nameProblems [] (m.federates.map Federate.name) ++
    federateProblems m.target [] m.federates

/-- A manifest has errors. The warnings found beside them are among the problems too. -/
structure Invalid where
  project : String
  problems : List Problem
  deriving DecidableEq, Repr

/-- What is said about a manifest with errors. -/
def Invalid.message (e : Invalid) : String :=
  toString (e.problems.countP Problem.isError) ++ " error(s) in manifest of '" ++ e.project ++ "'"

/-- The warnings about a manifest, unless it has errors. -/
def check (m : Manifest) : Except Invalid (List Problem) :=
  if m.problems.any Problem.isError then .error ⟨m.name, m.problems⟩ else .ok m.problems

end Manifest

end ReactorDeploy
