import ReactorDeploy.Net.Address
import Std.Data.TreeSet

/-!
# Handing out addresses

An allocator hands out the addresses of one /64 network in ascending order of their interface
identifiers, starting at one. Addresses that are in use elsewhere are reserved, under any spelling,
by the text that names them; reserving an address of the network itself also moves the counter past
it. Every address handed out is reserved in turn.

A shared allocator outlives the pass that uses it. A pass that dies while holding it leaves it
poisoned, and from then on nobody can use it.
-/

namespace ReactorDeploy.Net

/-- The number after `n`, if it still fits 64 bits. -/
def successor? (n : UInt64) : Option UInt64 :=
  if n = 0xffffffffffffffff then none else some (n + 1)

/-- A successor is the next number. -/
theorem toNat_of_successor? {n m : UInt64} (h : successor? n = some m) :
    m.toNat = n.toNat + 1 := by
  unfold successor? at h
  split at h
  · cases h
  · next hn =>
    cases h
    have : n.toNat ≠ 18446744073709551615 := fun e => hn (UInt64.toNat_inj.1 (by simpa using e))
    have := n.toNat_lt
    rw [UInt64.toNat_add]
    simp
    omega

/-- The state of address allocation in one /64 network. -/
structure Allocator where
  /-- The upper 64 bits of every address handed out. -/
  network : UInt64
  /-- The interface identifier to try next; none once all are spent. -/
  next : Option UInt64 := some 1
  /-- The normal forms of the addresses in use. -/
  reserved : Std.TreeSet String := ∅

/-- No address of the /64 network is left. -/
structure Exhausted where
  network : UInt64
  deriving DecidableEq, Repr

namespace Allocator

/-- The network that addresses come from unless another one is asked for: `fd01::/64`. -/
def defaultNetwork : UInt64 :=
  0xfd01000000000000

/-- A fresh allocator for the default network. -/
def fresh : Allocator :=
  { network := defaultNetwork }

/-- A fresh allocator for the /64 network of an address. -/
def forNetworkOf (x : Ipv6) : Allocator :=
  { network := x.network }

/-- Forgets every reservation and starts counting anew. -/
def reset (a : Allocator) : Allocator :=
  { network := a.network }

/-- The address of the network itself. -/
def networkAddress (a : Allocator) : Ipv6 :=
  ⟨a.network, 0⟩

/-- Whether an address text is reserved, under this spelling or another. -/
def isReserved (a : Allocator) (s : String) : Bool :=
  a.reserved.contains (normalForm s)

/-- Reserves an address text. Text that does not look like IPv6 is ignored; a well-formed address
of the network moves the counter past it, but never back. -/
def markUsed (a : Allocator) (s : String) : Allocator :=
  let body := Text.trim s
  if looksLikeIpv6 body then
    let reserved := a.reserved.insert (normalForm body)
    match Ipv6.parse? body with
    | some x =>
      if x.network = a.network then
        let next := a.next.bind fun n => (successor? x.interface).map fun past => max past n
        { a with next, reserved }
      else { a with reserved }
    | none => { a with reserved }
  else a

/-- Reserves address texts one after the other. -/
def markAllUsed (a : Allocator) (texts : List String) : Allocator :=
  texts.foldl markUsed a

/-- Hands out the first address that is not reserved, from interface identifier `n` upwards. -/
def nextFrom (a : Allocator) (n : UInt64) : Except Exhausted Ipv6 × Allocator :=
  let address : Ipv6 := ⟨a.network, n⟩
  let form := normalForm address.text
  if a.reserved.contains form then
    match _h : successor? n with
    | some m => nextFrom a m
    | none => (.error ⟨a.network⟩, { a with next := none })
  else (.ok address, { a with next := successor? n, reserved := a.reserved.insert form })
termination_by UInt64.size - n.toNat
decreasing_by
  have := toNat_of_successor? _h
  have := m.toNat_lt_size
  omega

/-- Hands out the next free address. -/
def nextAddress (a : Allocator) : Except Exhausted Ipv6 × Allocator :=
  match a.next with
  | some n => nextFrom a n
  | none => (.error ⟨a.network⟩, a)

end Allocator

/-- An allocator that passes share, until one of them dies while holding it. -/
inductive SharedAllocator where
  | usable (allocator : Allocator)
  | poisoned

/-- A shared allocator cannot be used any more. -/
structure Poisoned where
  deriving DecidableEq, Repr

namespace SharedAllocator

/-- A fresh shared allocator for the default network. -/
def fresh : SharedAllocator :=
  .usable .fresh

/-- The allocator within, for as long as it is usable. -/
def allocator? : SharedAllocator → Except Poisoned Allocator
  | .usable a => .ok a
  | .poisoned => .error ⟨⟩

/-- Runs a step on the allocator within. A poisoned one stays as it is. -/
def run {α : Type} (step : Allocator → α × Allocator) :
    SharedAllocator → Except Poisoned α × SharedAllocator
  | .usable a => let (result, a') := step a; (.ok result, .usable a')
  | .poisoned => (.error ⟨⟩, .poisoned)

/-- Resets the allocator within. -/
def reset (s : SharedAllocator) : Except Poisoned Unit × SharedAllocator :=
  s.run fun a => ((), a.reset)

end SharedAllocator

end ReactorDeploy.Net
