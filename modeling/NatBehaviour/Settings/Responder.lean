import NatBehaviour.Failure
import NatBehaviour.Settings.Ports

/-!
The settings of a responder: where its listeners are bound, and how many datagrams each of them
handles at once.
-/

namespace NatBehaviour.Settings

open NatBehaviour.Json (Reader Record Member Value)
open NatBehaviour.Net (Ip)

def readIp : Reader Ip :=
  .accept (fun s => (Ip.ofString? s).elim (.error "invalid IP address syntax") .ok)
    (Json.readTextAs "IP address")

structure Responder where
  bindIp : Ip
  ports : Ports
  /-- The most datagrams that one listener handles at once. -/
  maxInFlight : UInt64
  deriving DecidableEq, Repr

namespace Responder

def default : Responder := ⟨.v4 .unspecified, defaultPorts, 256⟩

/-- On the loopback interface, with ports that the system chooses. -/
def ephemeralLoopback : Responder :=
  { default with bindIp := .v4 .loopback, ports := ⟨0, 0, 0⟩ }

def fault? (r : Responder) : Option ConfigFault :=
  if r.maxInFlight = 0 then some .noHandlers else (repeated? r.ports).map .repeatedPort

def validate (r : Responder) : Except Failure Unit :=
  match r.fault? with
  | some fault => .error (.config fault)
  | none => .ok ()

def record : Record Responder where
  name := "ResponderConfig"
  initial := default
  complete := true
  members :=
    [.of "bind_ip" readIp fun v r => { r with bindIp := v },
     .of "primary_port" Json.readUInt16 fun v r => { r with ports.primary := v },
     .of "secondary_port" Json.readUInt16 fun v r => { r with ports.secondary := v },
     .of "tertiary_port" Json.readUInt16 fun v r => { r with ports.tertiary := v },
     .of "max_in_flight_per_listener" Json.readSize fun v r => { r with maxInFlight := v }]

def value (r : Responder) : Value :=
  .object
    [("bind_ip", .text r.bindIp.text),
     ("primary_port", .integer r.ports.primary.toNat),
     ("secondary_port", .integer r.ports.secondary.toNat),
     ("tertiary_port", .integer r.ports.tertiary.toNat),
     ("max_in_flight_per_listener", .integer r.maxInFlight.toNat)]

end Responder

end NatBehaviour.Settings
