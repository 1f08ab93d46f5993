import NatBehaviour.Json.Scalar

/-!
What a discovery can conclude about the translators and firewalls on the way to the responder.
-/

namespace NatBehaviour.Discovery

open NatBehaviour.Json (Variants)

inductive Classification
  /-- Publicly addressable; datagrams from unexpected sources arrive. -/
  | openInternet
  /-- Publicly addressable, behind a firewall that drops unsolicited datagrams. -/
  | symmetricFirewall
  /-- Every host can reach the existing mapping. -/
  | fullCone
  /-- Each local socket has a mapping of its own for each peer. -/
  | symmetricNat
  /-- Only an address and port that has been contacted gets through. -/
  | portRestricted
  /-- Only an address that has been contacted gets through, from any port. -/
  | restricted
  /-- The responder could not be reached. -/
  | unreachable
  deriving DecidableEq, Repr

namespace Classification

def all : List Classification :=
  [.openInternet, .symmetricFirewall, .fullCone, .symmetricNat, .portRestricted, .restricted,
   .unreachable]

/-- The name in a report. -/
def name : Classification → String
  | .openInternet => "Public"
  | .symmetricFirewall => "SymmetricFirewall"
  | .fullCone => "FullCone"
  | .symmetricNat => "SymmetricNat"
  | .portRestricted => "PortRestricted"
  | .restricted => "Restricted"
  | .unreachable => "Unreachable"

def variants : Variants Classification := ⟨all, name⟩

/-- The name for people. -/
def title : Classification → String
  | .openInternet => "Public"
  | .symmetricFirewall => "Symmetric UDP firewall"
  | .fullCone => "Full-cone NAT"
  | .symmetricNat => "Symmetric NAT"
  | .portRestricted => "Port-restricted NAT"
  | .restricted => "Restricted NAT"
  | .unreachable => "Unreachable"

def code : Classification → UInt8
  | .unreachable => 0
  | .openInternet => 1
  | .symmetricFirewall => 2
  | .fullCone => 3
  | .symmetricNat => 4
  | .portRestricted => 5
  | .restricted => 6

/-- Datagrams from anywhere arrive although nothing was sent there before. -/
def acceptsUnsolicited (c : Classification) : Bool := c = .openInternet || c = .fullCone

/-- Two such hosts cannot exchange datagrams directly. -/
def requiresRelay (c : Classification) : Bool := c = .symmetricNat || c = .unreachable

def isDirectPossible (c : Classification) : Bool := !c.requiresRelay

end Classification

end NatBehaviour.Discovery
