import ReactorDeploy.Net.Ipv4

/-!
# IPv6 addresses

An address is a 64-bit network part and a 64-bit interface identifier, which is how addresses are
handed out; reading and writing see it as eight groups of sixteen bits.

The written form is the usual compressed one. Groups are lower-case hexadecimal without leading
zeros, the first of the longest runs of at least two zero groups becomes `::`, and the addresses
that embed an IPv4 address behind `::ffff:` show it in dotted form. The reader takes more: one
`::` for at least one zero group anywhere, leading zeros up to four digits, upper case, and a
dotted IPv4 address in the place of the last two groups. Zones and brackets are refused.
-/

namespace ReactorDeploy.Net

/-- An IPv6 address: the network it lies in, and the interface identifier within it. -/
structure Ipv6 where
  network : UInt64
  interface : UInt64
  deriving DecidableEq, Repr, Inhabited

namespace Ipv6

/-- The four groups of a 64-bit half, the most significant first. -/
def halfGroups (w : UInt64) : List UInt16 :=
  [(w >>> 48).toUInt16, (w >>> 32).toUInt16, (w >>> 16).toUInt16, w.toUInt16]

/-- The half with the given groups. -/
def halfOfGroups (groups : List UInt16) : UInt64 :=
  groups.foldl (fun w g => (w <<< 16) ||| g.toUInt64) 0

/-- The eight groups of an address, the most significant first. -/
def groups (x : Ipv6) : List UInt16 :=
  halfGroups x.network ++ halfGroups x.interface

/-- The address with the given eight groups. -/
def ofGroups (groups : List UInt16) : Ipv6 :=
  ⟨halfOfGroups (groups.take 4), halfOfGroups (groups.drop 4)⟩

/-! ## Reading -/

/-- Reads one group: every hexadecimal digit there is, at most four of them. -/
def readGroup (cs : List Char) : Option (UInt16 × List Char) :=
  let isHex := fun c => (hexValue? c).isSome
  let digits := cs.takeWhile isHex
  if digits.isEmpty || 4 < digits.length then none
  else some (UInt16.ofNat (digitsValue 16 digits), cs.dropWhile isHex)

/-- The two groups that an embedded IPv4 address fills. -/
def embeddedGroups (x : Ipv4) : List UInt16 :=
  [x.a.toUInt16 * 256 + x.b.toUInt16, x.c.toUInt16 * 256 + x.d.toUInt16]

/-- What a run of groups came to: the groups, whether an IPv4 address ended it, and the text
after it. -/
structure Run where
  groups : List UInt16
  dotted : Bool
  rest : List Char

/-- The text of the next group, which a colon comes before unless it is the first one. -/
def afterSeparator : Bool → List Char → Option (List Char)
  | true, cs => some cs
  | false, ':' :: cs => some cs
  | false, _ => none

/-- Reads groups between colons while there is room for more. An IPv4 address is tried first
wherever two groups still fit, and ends the run. -/
def readRun (first : Bool) : Nat → List Char → Run
  | 0, cs => ⟨[], false, cs⟩
  | room + 1, cs =>
    match afterSeparator first cs with
    | none => ⟨[], false, cs⟩
    | some body =>
      match (if room = 0 then none else Ipv4.read body) with
      | some (x, rest) => ⟨embeddedGroups x, true, rest⟩
      | none =>
        match readGroup body with
        | none => ⟨[], false, cs⟩
        | some (g, rest) =>
          let more := readRun false room rest
          ⟨g :: more.groups, more.dotted, more.rest⟩

/-- The groups on the two sides of `::`, with the zero groups between them filled in. -/
def fill (front back : List UInt16) : List UInt16 :=
  front ++ List.replicate (8 - front.length - back.length) 0 ++ back

/-- Reads an address off the front of a text: eight groups, or fewer around one `::`. -/
def read (cs : List Char) : Option (Ipv6 × List Char) :=
  let front := readRun true 8 cs
  if front.groups.length = 8 then some (ofGroups front.groups, front.rest)
  else if front.dotted then none
  else match front.rest with
    | ':' :: ':' :: rest =>
      let back := readRun true (7 - front.groups.length) rest
      some (ofGroups (fill front.groups back.groups), back.rest)
    | _ => none

/-- The address that a whole text denotes. -/
def parse? (s : String) : Option Ipv6 :=
  match read s.toList with
  | some (address, []) => some address
  | _ => none

/-! ## Writing -/

/-- A group in lower-case hexadecimal without leading zeros. -/
def groupText (g : UInt16) : String :=
  String.ofList (Nat.toDigits 16 g.toNat)

/-- Groups between colons. -/
def groupsText (gs : List UInt16) : String :=
  ":".intercalate (gs.map groupText)

/-- The number of zero groups that a list starts with. -/
def zeroRun (gs : List UInt16) : Nat :=
  (gs.takeWhile (· == 0)).length

/-- Start and length of the first longest run of zero groups, `start` being the position of the
list in the whole. -/
def longestZeroRun (start : Nat) : List UInt16 → Nat × Nat
  | [] => (start, 0)
  | g :: gs =>
    let here := zeroRun (g :: gs)
    let later := longestZeroRun (start + 1) gs
    if later.2 ≤ here then (start, here) else later

/-- The IPv4 address that an address of `::ffff:0:0/96` embeds. -/
def mapped? (x : Ipv6) : Option Ipv4 :=
  if x.network = 0 ∧ x.interface >>> 32 = 0xffff then
    some ⟨(x.interface >>> 24).toUInt8, (x.interface >>> 16).toUInt8, (x.interface >>> 8).toUInt8,
      x.interface.toUInt8⟩
  else none

/-- The written form of an address. -/
def text (x : Ipv6) : String :=
  match x.mapped? with
  | some v4 => "::ffff:" ++ v4.text
  | none =>
    let gs := x.groups
    let (start, length) := longestZeroRun 0 gs
    if 1 < length then
      groupsText (gs.take start) ++ "::" ++ groupsText (gs.drop (start + length))
    else groupsText gs

end Ipv6

end ReactorDeploy.Net
