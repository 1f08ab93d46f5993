import NatBehaviour.Net.IpReader

/-!
Endpoints: an address with a port, such as a socket is bound to. An IPv6 endpoint is written in square
brackets, with the number of its interface if it has one.
-/

namespace NatBehaviour.Net

inductive Endpoint
  | v4 (ip : Ipv4) (port : UInt16)
  | v6 (ip : Ipv6) (port : UInt16) (scope : UInt32)
  deriving DecidableEq, Repr

namespace Endpoint

def of : Ip → UInt16 → Endpoint
  | .v4 ip, port => .v4 ip port
  | .v6 ip, port => .v6 ip port 0

def ip : Endpoint → Ip
  | .v4 ip _ => .v4 ip
  | .v6 ip _ _ => .v6 ip

def port : Endpoint → UInt16
  | .v4 _ port => port
  | .v6 _ port _ => port

def scope : Endpoint → UInt32
  | .v4 _ _ => 0
  | .v6 _ _ scope => scope

def isV4 (e : Endpoint) : Bool := e.ip.isV4

def withPort : Endpoint → UInt16 → Endpoint
  | .v4 ip _, port => .v4 ip port
  | .v6 ip _ scope, port => .v6 ip port scope

variable (e : Endpoint) (address : Ip) (p q : UInt16)

theorem ip_of : (of address p).ip = address := by
  cases address <;> rfl

theorem port_of : (of address p).port = p := by
  cases address <;> rfl

theorem port_withPort : (e.withPort p).port = p := by
  cases e <;> rfl

theorem of_withPort : (of address p).withPort q = of address q := by
  cases address <;> rfl

def chars : Endpoint → List Char
  | .v4 ip port => ip.chars ++ ':' :: decimal port.toNat
  | .v6 ip port scope =>
    let link := if scope = 0 then [] else '%' :: decimal scope.toNat
    '[' :: ip.chars ++ link ++ ']' :: ':' :: decimal port.toNat

def text (e : Endpoint) : String := String.ofList e.chars

/-- The colon and the port. -/
def takePort : Taker UInt16 := fun s => do
  let s ← takeChar ':' s
  let (n, s) ← Net.port.take s
  return (n.toUInt16, s)

/-- The number of the interface, or zero where none is written. -/
def takeScope (s : List Char) : UInt32 × List Char :=
  match (takeChar '%' s).bind Net.scope.take with
  | some (n, s) => (n.toUInt32, s)
  | none => (0, s)

def takeV4 : Taker Endpoint := fun s => do
  let (ip, s) ← takeIpv4 s
  let (port, s) ← takePort s
  return (.v4 ip port, s)

def takeV6 : Taker Endpoint := fun s => do
  let s ← takeChar '[' s
  let (ip, s) ← takeIpv6 s
  let (scope, s) := takeScope s
  let s ← takeChar ']' s
  let (port, s) ← takePort s
  return (.v6 ip port scope, s)

def take : Taker Endpoint := fun s =>
  match takeV4 s with
  | some found => some found
  | none => takeV6 s

def ofString? (s : String) : Option Endpoint := ofWhole? take s

end Endpoint

end NatBehaviour.Net
