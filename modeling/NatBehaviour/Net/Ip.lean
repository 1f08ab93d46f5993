/-!
Addresses of the internet protocol and their text. An IPv4 address is written as four decimal
numbers; of an IPv6 address the longest run of zero groups is left out, the first of two that are
equally long, and an IPv4-mapped address ends in its IPv4 form.
-/

namespace NatBehaviour.Net

structure Ipv4 where
  a : UInt8
  b : UInt8
  c : UInt8
  d : UInt8
  deriving DecidableEq, Repr

namespace Ipv4

def unspecified : Ipv4 := ⟨0, 0, 0, 0⟩

def loopback : Ipv4 := ⟨127, 0, 0, 1⟩

def broadcast : Ipv4 := ⟨255, 255, 255, 255⟩

/-- The addresses of groups of hosts. -/
def isMulticast (ip : Ipv4) : Bool := 224 ≤ ip.a && ip.a < 240

end Ipv4

structure Ipv6 where
  g0 : UInt16
  g1 : UInt16
  g2 : UInt16
  g3 : UInt16
  g4 : UInt16
  g5 : UInt16
  g6 : UInt16
  g7 : UInt16
  deriving DecidableEq, Repr

namespace Ipv6

def unspecified : Ipv6 := ⟨0, 0, 0, 0, 0, 0, 0, 0⟩

def loopback : Ipv6 := ⟨0, 0, 0, 0, 0, 0, 0, 1⟩

def groups (ip : Ipv6) : List UInt16 :=
  [ip.g0, ip.g1, ip.g2, ip.g3, ip.g4, ip.g5, ip.g6, ip.g7]

def ofGroups? : List UInt16 → Option Ipv6
  | [a, b, c, d, e, f, g, h] => some ⟨a, b, c, d, e, f, g, h⟩
  | _ => none

/-- The IPv4 address inside an IPv4-mapped address. -/
def mapped? (ip : Ipv6) : Option Ipv4 :=
  if ip.groups.take 6 = [0, 0, 0, 0, 0, 0xFFFF] then
    some ⟨(ip.g6 / 256).toUInt8, (ip.g6 % 256).toUInt8, (ip.g7 / 256).toUInt8,
      (ip.g7 % 256).toUInt8⟩
  else none

/-- The addresses of groups of hosts. -/
def isMulticast (ip : Ipv6) : Bool := ip.g0 &&& 0xFF00 = 0xFF00

/-- How far a multicast address reaches: 1 on the host itself, 2 on one link, and more beyond. -/
def multicastScope (ip : Ipv6) : UInt16 := ip.g0 &&& 0xF

/-- The addresses that mean something on one link only. -/
def isLinkLocal (ip : Ipv6) : Bool :=
  ip.g0 &&& 0xFFC0 = 0xFE80 || ip.isMulticast && (ip.multicastScope = 1 || ip.multicastScope = 2)

end Ipv6

inductive Ip
  | v4 (ip : Ipv4)
  | v6 (ip : Ipv6)
  deriving DecidableEq, Repr

namespace Ip

def isV4 : Ip → Bool
  | .v4 _ => true
  | .v6 _ => false

/-- The address that stands for all interfaces. -/
def isUnspecified : Ip → Bool
  | .v4 ip => ip = .unspecified
  | .v6 ip => ip = .unspecified

def isMulticast : Ip → Bool
  | .v4 ip => ip.isMulticast
  | .v6 ip => ip.isMulticast

/-- The address by which the host knows a peer: an IPv4-mapped address stands for the IPv4 one. -/
def canonical : Ip → Ip
  | .v4 ip => .v4 ip
  | .v6 ip => (ip.mapped?.map .v4).getD (.v6 ip)

end Ip

/-- Two groups of an IPv6 address made of an IPv4 address. -/
def Ipv4.groups (ip : Ipv4) : List UInt16 :=
  [ip.a.toUInt16 * 256 + ip.b.toUInt16, ip.c.toUInt16 * 256 + ip.d.toUInt16]

def decimal (n : Nat) : List Char := Nat.toDigits 10 n

def Ipv4.chars (ip : Ipv4) : List Char :=
  decimal ip.a.toNat ++ '.' :: decimal ip.b.toNat ++ '.' :: decimal ip.c.toNat ++
    '.' :: decimal ip.d.toNat

/-- A stretch of groups. -/
structure Run where
  start : Nat
  length : Nat
  deriving DecidableEq, Repr

/-- The longest run of zeros from `index` on, where `current` is the run that reaches up to there and
`best` the longest one so far. -/
def longestZeros (index : Nat) (current best : Run) : List UInt16 → Run
  | [] => best
  | g :: gs =>
    if g = 0 then
      let current := if current.length = 0 then ⟨index, 1⟩ else ⟨current.start, current.length + 1⟩
      longestZeros (index + 1) current (if best.length < current.length then current else best) gs
    else longestZeros (index + 1) ⟨0, 0⟩ best gs

def groupChars (gs : List UInt16) : List Char :=
  [':'].intercalate (gs.map fun g => Nat.toDigits 16 g.toNat)

def Ipv6.chars (ip : Ipv6) : List Char :=
  match ip.mapped? with
  | some ip => [':', ':', 'f', 'f', 'f', 'f', ':'] ++ ip.chars
  | none =>
    let run := longestZeros 0 ⟨0, 0⟩ ⟨0, 0⟩ ip.groups
    if 1 < run.length then
      groupChars (ip.groups.take run.start) ++ ':' :: ':' ::
        groupChars (ip.groups.drop (run.start + run.length))
    else groupChars ip.groups

def Ip.chars : Ip → List Char
  | .v4 ip => ip.chars
  | .v6 ip => ip.chars

def Ip.text (ip : Ip) : String := String.ofList ip.chars

end NatBehaviour.Net
