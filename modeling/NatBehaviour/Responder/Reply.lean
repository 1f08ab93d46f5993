import NatBehaviour.Network.Program
import NatBehaviour.Wire.Listeners
import NatBehaviour.Wire.Message

/-!
What a responder sends in answer to one datagram. The listeners that reply depend on the kind of the
request and on the listener that received it, and on nothing that came before.
-/

namespace NatBehaviour.Responder

open NatBehaviour.Json (Bytes)
open NatBehaviour.Net (Endpoint)
open NatBehaviour.Network (Program SocketAddress)
open NatBehaviour.Probe (Datagram)
open NatBehaviour.Wire (Kind Listeners Message Role received)

/-- The listeners that reply, in the order in which they send. -/
def replyPlan (kind : Kind) (receivedOn : Role) : List Role :=
  match kind with
  | .ping => [receivedOn]
  | .publicCheck | .fullConeCheck => [.secondary]
  | .portRestrictedCheck => [receivedOn, .tertiary]

/-- A datagram on its way out of a responder. -/
structure Sending where
  role : Role
  destination : Endpoint
  payload : Bytes
  deriving DecidableEq, Repr

/-- The replies to a request, all with the same text and to where it came from. -/
def replies (request : Message) (receivedOn : Role) (source : Endpoint) : List Sending :=
  let payload := (Message.reply request.kind source).encode
  (replyPlan request.kind receivedOn).map fun role => ⟨role, source, payload⟩

/-- The replies to a datagram. One that does not decode is dropped. -/
def answer (receivedOn : Role) (source : Endpoint) (datagram : Bytes) : List Sending :=
  match Message.decode (received datagram) with
  | .error _ => []
  | .ok request => replies request receivedOn source

/-- Sends some replies, each from its listener. One that cannot be sent does not hold up the next. -/
def sendAll (ls : Listeners SocketAddress) : List Sending → Program Unit
  | [] => return
  | s :: rest => do
    let _ ← Program.perform (.send (ls.get s.role) s.destination s.payload)
    sendAll ls rest

/-- What is done with a datagram that a listener has received. -/
def handle (ls : Listeners SocketAddress) (receivedOn : Role) (d : Datagram) : Program Unit :=
  sendAll ls (answer receivedOn d.source d.payload)

end NatBehaviour.Responder
