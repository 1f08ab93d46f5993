import NatBehaviour.Network.World

/-!
Hosts: which names they know, which addresses are theirs, and where they can send to. `Host.network`
joins a host with the answers that its datagrams get.
-/

namespace NatBehaviour.Network

open NatBehaviour.Net (Ip Ipv4 Ipv6 Endpoint)

structure Host where
  names : List (String × List Ip)
  /-- Whether sockets can be bound to an address. -/
  isLocal : Ip → Bool
  /-- The source address of datagrams to a destination, if there is a way to it. -/
  source : Ip → Option Ip
  /-- The lowest port that needs no privilege. -/
  lowestOpenPort : UInt16
  /-- The ports that the system chooses from. -/
  ephemeral : List UInt16

namespace Host

/-- The ports from 32768 to 60999. -/
def ephemeralPorts : List UInt16 := (List.range 28232).map fun n => (32768 + n).toUInt16

def isLoopback : Ip → Bool
  | .v4 ip => ip.a = 127
  | .v6 ip => ip = .loopback

def localhost : List (String × List Ip) := [("localhost", [.v4 .loopback])]

/-- A host that reaches itself over the loopback interface, and nothing else. Multicast addresses can
be bound on any host. -/
def loopback : Host where
  names := localhost
  isLocal ip := ip.isUnspecified || ip.isMulticast || isLoopback ip
  source ip := if isLoopback ip then some ip else none
  lowestOpenPort := 1024
  ephemeral := ephemeralPorts

/-- A host without any way to others: every IPv4 address can be bound, and of IPv6 the unspecified one,
those of groups and the IPv4-mapped ones. -/
def isolated : Host where
  names := localhost
  isLocal
    | .v4 _ => true
    | .v6 ip => ip = .unspecified || ip.isMulticast || ip.mapped?.isSome
  source _ := none
  lowestOpenPort := 1024
  ephemeral := ephemeralPorts

/-- The addresses of a host, which may be written as an address. -/
def resolve (h : Host) (host : String) (port : UInt16) : List Endpoint :=
  let ips := match Ip.ofString? host with
    | some ip => [ip]
    | none => (h.names.lookup host).getD []
  ips.map (Endpoint.of · port)

/-- Whether an address stands for all others of its kind, or for all there are. -/
def covers (a b : Ip) : Bool :=
  match a, b with
  | .v4 a, .v4 b => a = b || a = .unspecified
  | .v6 a, .v6 b => a = b || a = .unspecified
  | .v6 a, .v4 _ => a = .unspecified
  | .v4 _, .v6 _ => false

def conflicts (a b : Endpoint) : Bool :=
  let (p, q) := (a.ip.canonical, b.ip.canonical)
  a.port = b.port && (covers p q || covers q p)

def isFree (inUse : List Endpoint) (e : Endpoint) : Bool := inUse.all fun other => !conflicts other e

/-- The endpoint with its own port, or with the first free one where it has none. -/
def choosePort (h : Host) (inUse : List Endpoint) (e : Endpoint) : Except OsError Endpoint :=
  let ports := if e.port = 0 then h.ephemeral else [e.port]
  match ports.find? fun port => isFree inUse (e.withPort port) with
  | some port => .ok (e.withPort port)
  | none => .error .addressInUse

def isPrivileged (h : Host) (e : Endpoint) : Bool := e.port ≠ 0 && e.port < h.lowestOpenPort

/-- An address that is valid on one link only needs the number of that link. -/
def lacksScope : Endpoint → Bool
  | .v4 _ _ => false
  | .v6 ip _ scope => ip.isLinkLocal && scope = 0

/-- What stands in the way of binding an address, whatever else is bound. -/
def refusal? (h : Host) (e : Endpoint) : Option OsError :=
  let privilege := if h.isPrivileged e then some .permissionDenied else none
  let notLocal := if h.isLocal e.ip then none else some .addressNotAvailable
  if e.isV4 then notLocal <|> privilege
  else privilege <|> (if lacksScope e then some .invalidArgument else none) <|> notLocal

def bind (h : Host) (inUse : List Endpoint) (e : Endpoint) : Except OsError Endpoint :=
  match h.refusal? e with
  | some error => .error error
  | none => h.choosePort inUse e

/-- The most bytes that fit into one datagram. -/
def largestPayload : Nat := 65507

/-- Whether there is a way to an address. What is sent to the unspecified IPv4 address stays on the
host, whatever becomes of it there. -/
def reaches (h : Host) (ip : Ip) : Bool := ip = .v4 .unspecified || (h.source ip).isSome

def canSend (h : Host) (t : Transmission) : Bool :=
  t.destination.port ≠ 0 && t.source.isV4 = t.destination.isV4 &&
    t.destination.ip ≠ .v4 .broadcast && t.payload.length ≤ largestPayload &&
    h.reaches t.destination.ip

/-- The host with others around it that answer what it sends. Its sockets report no errors. -/
def network (h : Host) (answer : List (Transmission × Bool) → Transmission → List Response) :
    Network where
  resolve := h.resolve
  bind := h.bind
  route e := if e.ip = .v4 .broadcast then none else h.source e.ip
  carry log t := if h.canSend t then some (answer log t) else none
  failure _ _ := none

end Host

end NatBehaviour.Network
