import ReactorDeploy.Net.Ipv6
import ReactorDeploy.Text.Blank
import ReactorDeploy.Text.Lowercase

/-!
# Addresses of either version

What a text says about the address it denotes: its version, and the normal form under which two
spellings of one address are the same text. A text that denotes no address keeps its characters in
lower case, so that it can still be told from others.
-/

namespace ReactorDeploy.Net

/-- An address of IP version 4 or 6. -/
inductive Address where
  | v4 (address : Ipv4)
  | v6 (address : Ipv6)
  deriving DecidableEq, Repr

namespace Address

/-- The address that a whole text denotes. -/
def parse? (s : String) : Option Address :=
  match Ipv4.parse? s with
  | some x => some (.v4 x)
  | none => (Ipv6.parse? s).map .v6

/-- The written form of an address. -/
def text : Address → String
  | .v4 x => x.text
  | .v6 x => x.text

/-- Whether the address is an IPv6 one. -/
def isV6 : Address → Bool
  | .v4 _ => false
  | .v6 _ => true

end Address

/-- The normal form of an address text: the written form of the address it denotes, blanks at the
ends aside, and the text in lower case when it denotes none. -/
def normalForm (s : String) : String :=
  let body := Text.trim s
  match Address.parse? body with
  | some address => address.text
  | none => Text.lowercase body

/-- Whether a text looks like IPv6: it denotes an IPv6 address, or no address at all but has a
colon in it. -/
def looksLikeIpv6 (s : String) : Bool :=
  match Address.parse? s with
  | some address => address.isV6
  | none => s.toList.contains ':'

end ReactorDeploy.Net
