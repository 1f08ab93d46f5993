import NatBehaviour.Network.Program
import NatBehaviour.Settings.Responder

/-!
Binding the three listeners of a responder, one after the other: either all of them are bound in the
end, or none.
-/

namespace NatBehaviour.Responder

open NatBehaviour.Net (Ip Endpoint)
open NatBehaviour.Network (Program SocketAddress)
open NatBehaviour.Wire (Listeners)

def bindListener (ip : Ip) (port : UInt16) : Program (Except Failure SocketAddress) := do
  let address := Endpoint.of ip port
  match ← Program.perform (.bind address) with
  | .ok socket => return .ok socket
  | .error e => return .error (.bind (.listener address e))

/-- Binds a listener and goes on; closes it again if what follows fails. -/
def withListener {α : Type} (ip : Ip) (port : UInt16)
    (next : SocketAddress → Program (Except Failure α)) : Program (Except Failure α) := do
  match ← bindListener ip port with
  | .error f => return .error f
  | .ok socket =>
    match ← next socket with
    | .ok a => return .ok a
    | .error f =>
      Program.perform (.close socket)
      return .error f

/-- Checks the settings before any socket is touched. -/
def bind (r : Settings.Responder) : Program (Except Failure (Listeners SocketAddress)) :=
  match r.validate with
  | .error f => return .error f
  | .ok () =>
    withListener r.bindIp r.ports.primary fun primary =>
      withListener r.bindIp r.ports.secondary fun secondary =>
        withListener r.bindIp r.ports.tertiary fun tertiary =>
          return .ok ⟨primary, secondary, tertiary⟩

end NatBehaviour.Responder
