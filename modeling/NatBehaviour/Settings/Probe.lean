import NatBehaviour.Failure
import NatBehaviour.Settings.Duration
import NatBehaviour.Settings.Ports
import NatBehaviour.Text.Blank

/-!
The settings of a probing client: the responder that it probes, and how often and how long it tries.
-/

namespace NatBehaviour.Settings

open NatBehaviour.Json (Record Member Value)
open NatBehaviour.Text (isBlankText)

structure Probe where
  serverHost : String
  ports : Ports
  maxAttempts : UInt32
  timeoutMs : UInt64
  /-- The port of the first socket, or zero for any. -/
  localPort : UInt16
  deriving DecidableEq, Repr

namespace Probe

def default : Probe := ⟨"127.0.0.1", defaultPorts, 3, 5000, 0⟩

def forServer (host : String) : Probe := { default with serverHost := host }

def timeout (p : Probe) : Duration := .ofMillis p.timeoutMs

/-- The longest time that a batch of probes can take. -/
def batchBudget (p : Probe) : Except Fatal Duration :=
  match p.timeout.times? p.maxAttempts with
  | some d => .ok d
  | none => .error .durationOverflow

/-- What makes the settings useless, if anything does. -/
def fault? (p : Probe) : Option ConfigFault :=
  if isBlankText p.serverHost then some .emptyHost
  else if p.maxAttempts = 0 then some .noAttempts
  else if p.timeoutMs = 0 then some .noTimeout
  else (repeated? p.ports).map .repeatedPort

def validate (p : Probe) : Except Failure Unit :=
  match p.fault? with
  | some fault => .error (.config fault)
  | none => .ok ()

def record : Record Probe where
  name := "ProbeConfig"
  initial := default
  complete := true
  members :=
    [.of "server_host" Json.readString fun v p => { p with serverHost := v },
     .of "primary_port" Json.readUInt16 fun v p => { p with ports.primary := v },
     .of "secondary_port" Json.readUInt16 fun v p => { p with ports.secondary := v },
     .of "tertiary_port" Json.readUInt16 fun v p => { p with ports.tertiary := v },
     .of "max_probe_attempts" Json.readUInt32 fun v p => { p with maxAttempts := v },
     .of "probe_timeout_ms" Json.readUInt64 fun v p => { p with timeoutMs := v },
     .of "local_port" Json.readUInt16 fun v p => { p with localPort := v }]

def value (p : Probe) : Value :=
  .object
    [("server_host", .text p.serverHost),
     ("primary_port", .integer p.ports.primary.toNat),
     ("secondary_port", .integer p.ports.secondary.toNat),
     ("tertiary_port", .integer p.ports.tertiary.toNat),
     ("max_probe_attempts", .integer p.maxAttempts.toNat),
     ("probe_timeout_ms", .integer p.timeoutMs.toNat),
     ("local_port", .integer p.localPort.toNat)]

end Probe

end NatBehaviour.Settings
