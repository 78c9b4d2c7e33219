/-!
# IPv4 addresses

Four octets, written as decimal numbers between dots. An octet is read from one to three digits
without a leading zero, so every address has exactly one written form.
-/

namespace ReactorDeploy.Net

/-- An IPv4 address, the most significant octet first. -/
structure Ipv4 where
  a : UInt8
  b : UInt8
  c : UInt8
  d : UInt8
  deriving DecidableEq, Repr, Inhabited

/-- The value of a hexadecimal digit of either case. -/
def hexValue? (c : Char) : Option Nat :=
  if '0' ≤ c ∧ c ≤ '9' then some (c.toNat - 48)
  else if 'a' ≤ c ∧ c ≤ 'f' then some (c.toNat - 87)
  else if 'A' ≤ c ∧ c ≤ 'F' then some (c.toNat - 55)
  else none

/-- The number that a run of digits denotes in the given base. Characters that are no digits
count as zero. -/
def digitsValue (base : Nat) (digits : List Char) : Nat :=
  digits.foldl (fun n c => base * n + (hexValue? c).getD 0) 0

namespace Ipv4

/-- Reads one octet, taking every decimal digit there is. -/
def readOctet (cs : List Char) : Option (UInt8 × List Char) :=
  let digits := cs.takeWhile Char.isDigit
  let value := digitsValue 10 digits
  if digits.isEmpty || 3 < digits.length then none
  else if digits.head? = some '0' && 1 < digits.length then none
  else if 255 < value then none
  else some (UInt8.ofNat value, cs.dropWhile Char.isDigit)

/-- Reads a dot and the octet after it. -/
def readNext : List Char → Option (UInt8 × List Char)
  | '.' :: cs => readOctet cs
  | _ => none

/-- Reads an address off the front of a text. -/
def read (cs : List Char) : Option (Ipv4 × List Char) := do
  let (a, cs) ← readOctet cs
  let (b, cs) ← readNext cs
  let (c, cs) ← readNext cs
  let (d, cs) ← readNext cs
  return (⟨a, b, c, d⟩, cs)

/-- The address that a whole text denotes. -/
def parse? (s : String) : Option Ipv4 :=
  match read s.toList with
  | some (address, []) => some address
  | _ => none

/-- The written form: decimal octets between dots. -/
def text (x : Ipv4) : String :=
  toString x.a.toNat ++ "." ++ toString x.b.toNat ++ "." ++ toString x.c.toNat ++ "." ++
    toString x.d.toNat

end Ipv4

end ReactorDeploy.Net
