import NatBehaviour.Network.Host
import NatBehaviour.Proofs.Responder.Attribution
import NatBehaviour.Settings.Ports

/-!
A network that can be run: a host, and a responder that answers what is sent to its primary listener. It
stands for the networks in which replies get lost, are late or are copied, but not changed.
-/

namespace NatBehaviour.Responder

open NatBehaviour.Net (Endpoint)
open NatBehaviour.Network (Host Response Transmission)
open NatBehaviour.Wire (Kind Listeners Message Role)

/-- The replies of some listeners to a transmission that is seen to come from some address. A copy of
each arrives after each delay. -/
def relayed (server : Listeners Endpoint) (source : Endpoint) (passes : Role → Bool)
    (delays : List Nat) (t : Transmission) : List Response :=
  ((answer .primary source t.payload).filter (passes ·.role)).flatMap fun s =>
    delays.map fun delay => ⟨delay, t.source, ⟨server.get s.role, s.payload⟩⟩

def relay (host : Host) (server : Listeners Endpoint) (seen : Endpoint → Endpoint)
    (passes : List (Transmission × Bool) → Transmission → Role → Bool) (delays : List Nat) : Network :=
  host.network fun log t =>
    if t.destination = server.primary then
      relayed server (seen t.source) (passes log t) delays t
    else []

/-- A responder with the well-known ports on the loopback interface. -/
def loopbackListeners : Listeners Endpoint := Settings.defaultPorts.map (.v4 .loopback)

/-- The loopback interface with only two ports to choose from, which are soon found. -/
def narrowHost : Host := { Host.loopback with ephemeral := [32768, 32769] }

/-- All sockets are seen under one address of a translator, which drops what comes from the secondary
listener. -/
def restrictingRelay (delays : List Nat) : Network :=
  relay narrowHost loopbackListeners (fun _ => .v4 ⟨203, 0, 113, 7⟩ 9)
    (fun _ _ role => role ≠ .secondary) delays

variable {server : Listeners Endpoint} {source : Endpoint} {passes : Role → Bool}
  {delays : List Nat} {t : Transmission} {r : Response}

theorem mem_relayed (hr : r ∈ relayed server source passes delays t) :
    r.destination = t.source ∧ r.delay ∈ delays ∧ ∃ s ∈ answer .primary source t.payload,
      passes s.role = true ∧ r.datagram = ⟨server.get s.role, s.payload⟩ := by
  obtain ⟨s, hs, hcopy⟩ := List.mem_flatMap.mp hr
  obtain ⟨delay, hdelay, rfl⟩ := List.mem_map.mp hcopy
  obtain ⟨hsent, hpasses⟩ := List.mem_filter.mp hs
  exact ⟨rfl, hdelay, s, hsent, hpasses, rfl⟩

/-- Without copies, every reply arrives once. -/
theorem map_datagram_relayed (delay : Nat) :
    (relayed server source passes [delay] t).map (·.datagram) =
      ((answer .primary source t.payload).filter (passes ·.role)).map
        fun s => ⟨server.get s.role, s.payload⟩ := by
  simp only [relayed, List.map_flatMap, List.map_cons, List.map_nil]
  exact List.map_eq_flatMap.symm

/-- Whether a host can send a request depends on the two addresses only. -/
theorem canSend_request (host : Host) {kind : Kind}
    (hpayload : t.payload = (Message.request kind).encode) :
    host.canSend t = host.canSend { t with payload := [] } := by
  simp [Host.canSend, hpayload, Message.length_encode_request, Host.largestPayload]

end NatBehaviour.Responder
