import NatBehaviour.Discovery.Session
import NatBehaviour.Network.World

/-!
Discovery clients. A client holds settings that have been checked. A run looks for the responder and
for the way to it, opens a socket, takes the steps and closes the socket again; everything that the
network can do ends in a classification, and only a socket that cannot be bound is a failure.
-/

namespace NatBehaviour.Discovery

open NatBehaviour.Net (Ip Endpoint)
open NatBehaviour.Network (Program World)
open NatBehaviour.Text (Uuid)
open NatBehaviour.Wire (Listeners)

structure Client where
  settings : Settings.Probe
  settings_valid : settings.fault? = none

/-- What tells one run from another. -/
structure Stamp where
  runId : Uuid
  /-- Milliseconds since the beginning of 1970. -/
  startedAtMs : Int64
  deriving DecidableEq, Repr

/-- The address to probe of those that a name stands for: the first one of IPv4, or else the first. -/
def preferred? (resolved : List Endpoint) : Option Endpoint :=
  (resolved.find? Endpoint.isV4).or resolved.head?

namespace Client

def ofSettings (p : Settings.Probe) : Except Failure Client :=
  match h : p.fault? with
  | some fault => .error (.config fault)
  | none => .ok ⟨p, h⟩

/-- The addresses of the three listeners, if the name of the server stands for any address. -/
def resolveServer (c : Client) : Program (Option (Listeners Endpoint)) := do
  let p := c.settings
  let resolved ← Program.perform (.resolve p.serverHost p.ports.primary)
  return (preferred? resolved).map fun primary =>
    ⟨primary, .of primary.ip p.ports.secondary, .of primary.ip p.ports.tertiary⟩

/-- The address of this host on the way to the server. A socket shows it that is bound to no address
in particular; it sends nothing. -/
def outboundIp (server : Endpoint) : Program (Attempted (Option Ip)) := do
  let unspecified : Ip := if server.isV4 then .v4 .unspecified else .v6 .unspecified
  match ← Program.perform (.bind (.of unspecified 0)) with
  | .error e => return .error (.bind (.route e))
  | .ok socket =>
    let ip ← Program.perform (.route socket server)
    Program.perform (.close socket)
    return .ok ip

/-- A run as far as it goes: the address of its first socket, if it came to open one, and its
course. -/
structure Trail where
  localAddress : Option String
  course : Course
  deriving DecidableEq, Repr

/-- A run that ends before there is a socket to probe from. -/
def Trail.unreachable (verdict : String) : Trail :=
  ⟨none, .concluded .reachability [] verdict .unreachable⟩

/-- Takes the steps with a socket that is opened for them. -/
def takeSteps (c : Client) (server : Listeners Endpoint) (localIp : Ip) :
    Program (Attempted Trail) :=
  withSocket localIp c.settings.localPort fun socket => do
    match ← Session.reachability ⟨c.settings, socket, localIp, server⟩ with
    | .error f => return .error f
    | .ok course => return .ok ⟨some socket.text, course⟩

def trail (c : Client) : Program (Attempted Trail) := do
  match ← c.resolveServer with
  | none => return .ok (.unreachable Verdict.unresolved)
  | some server =>
    match ← outboundIp server.primary with
    | .error f => return .error f
    | .ok none => return .ok (.unreachable Verdict.noRoute)
    | .ok (some localIp) => c.takeSteps server localIp

def run (c : Client) (stamp : Stamp) : Program (Attempted Report) := do
  let start ← Program.perform .clock
  match ← c.trail with
  | .error f => return .error f
  | .ok t =>
    let stop ← Program.perform .clock
    return .ok
      { runId := stamp.runId
        startedAtMs := stamp.startedAtMs
        elapsedMs := (stop - start).toUInt64
        localAddress := t.localAddress
        findings := t.course.findings
        classification := t.course.classification }

/-- A run of which only the conclusion matters. -/
def classify (c : Client) (stamp : Stamp) : Program (Attempted Classification) := do
  return (← c.run stamp).map (·.classification)

end Client

/-- Checks the settings and classifies the host. -/
def classify (p : Settings.Probe) (stamp : Stamp) : Program (Attempted Classification) :=
  match Client.ofSettings p with
  | .error f => return .error f
  | .ok c => c.classify stamp

/-- Gives up some time from now, with nothing but the fact that it was too long. -/
def classifyWithin (net : Network) (p : Settings.Probe) (stamp : Stamp) (deadlineMs : Nat)
    (w : World) : Attempted (Option Classification) × World :=
  match Client.ofSettings p with
  | .error f => (.error f, w)
  | .ok c =>
    match (c.classify stamp).runWithin net (w.clock + deadlineMs) w with
    | (some result, w) => (result.map some, w)
    | (none, w) => (.ok none, w)

end NatBehaviour.Discovery
