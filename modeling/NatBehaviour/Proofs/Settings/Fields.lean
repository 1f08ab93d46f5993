import NatBehaviour.Proofs.Json.Codec
import NatBehaviour.Proofs.Net.AddressText
import NatBehaviour.Settings.Storage

/-!
The two kinds of settings field by field: how the value of each is read and written, and where it has its
place.
-/

namespace NatBehaviour.Settings

open NatBehaviour.Json (Codec Described)

def Probe.described : Described Probe.record Probe.value where
  fields :=
    [.of "server_host" (.text "a string") (·.serverHost) fun v p => { p with serverHost := v },
     .of "primary_port" .uint16 (·.ports.primary) fun v p => { p with ports.primary := v },
     .of "secondary_port" .uint16 (·.ports.secondary) fun v p => { p with ports.secondary := v },
     .of "tertiary_port" .uint16 (·.ports.tertiary) fun v p => { p with ports.tertiary := v },
     .of "max_probe_attempts" .uint32 (·.maxAttempts) fun v p => { p with maxAttempts := v },
     .of "probe_timeout_ms" (.uint64 "u64") (·.timeoutMs) fun v p => { p with timeoutMs := v },
     .of "local_port" .uint16 (·.localPort) fun v p => { p with localPort := v }]
  distinct := by decide
  members := rfl
  value_eq _ := rfl
  rebuilt := by
    intro ⟨_, ⟨_, _, _⟩, _, _, _⟩
    rfl

def ipCodec : Codec Net.Ip :=
  .accept (.text "IP address") (fun s => (Net.Ip.ofString? s).elim (.error "invalid IP address syntax") .ok)
    (·.text) fun ip => by rw [ip.ofString?_text, Option.elim]

def Responder.described : Described Responder.record Responder.value where
  fields :=
    [.of "bind_ip" ipCodec (·.bindIp) fun v r => { r with bindIp := v },
     .of "primary_port" .uint16 (·.ports.primary) fun v r => { r with ports.primary := v },
     .of "secondary_port" .uint16 (·.ports.secondary) fun v r => { r with ports.secondary := v },
     .of "tertiary_port" .uint16 (·.ports.tertiary) fun v r => { r with ports.tertiary := v },
     .of "max_in_flight_per_listener" (.uint64 "usize") (·.maxInFlight) fun v r =>
       { r with maxInFlight := v }]
  distinct := by decide
  members := rfl
  value_eq _ := rfl
  rebuilt := by
    intro ⟨_, ⟨_, _, _⟩, _⟩
    rfl

/-- The two kinds of settings. -/
inductive Kind
  | probe
  | responder

namespace Kind

abbrev Data : Kind → Type
  | .probe => Probe
  | .responder => Responder

def format : (k : Kind) → Format k.Data
  | .probe => Probe.format
  | .responder => Responder.format

def described : (k : Kind) → Described k.format.record k.format.value
  | .probe => Probe.described
  | .responder => Responder.described

end Kind

end NatBehaviour.Settings
