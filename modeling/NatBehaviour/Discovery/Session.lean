import NatBehaviour.Discovery.Report
import NatBehaviour.Probe.Batch
import NatBehaviour.Settings.Probe

/-!
The steps of a discovery. Each step sends one batch of probes, or two, and either concludes or leads
to the next step:

1. Reachability: a ping. No reply means that the responder is unreachable. If every attempt reports
   the socket's own address there is no translator in between, which leads to step 2; else to step 3.
2. Firewall: a reply from the secondary listener is let through, or it is not.
3. Full cone: the same through the existing mapping. Silence leads to step 4.
4. Symmetric: the mappings of two sockets are compared. The same one for both leads to step 5.
5. Port restriction: a reply from the tertiary listener is let through, or it is not.
-/

namespace NatBehaviour.Discovery

open NatBehaviour.Net (Ip Endpoint)
open NatBehaviour.Network (Program SocketAddress)
open NatBehaviour.Probe (Batch Outcome)
open NatBehaviour.Wire (Kind Message Role Listeners)

/-- What all steps of one run share. -/
structure Session where
  settings : Settings.Probe
  /-- The first socket. -/
  socket : SocketAddress
  localIp : Ip
  server : Listeners Endpoint

/-- The findings from some step on, and what they come to. -/
structure Course where
  findings : List Finding
  classification : Classification
  deriving DecidableEq, Repr

abbrev Attempted := Except Failure

namespace Course

def concluded (step : Step) (outcomes : List Outcome) (verdict : String) (c : Classification) :
    Course := ⟨[⟨step, outcomes, verdict⟩], c⟩

/-- Puts a finding in front of those of the following steps. -/
def after (step : Step) (outcomes : List Outcome) (verdict : String) (c : Course) : Course :=
  ⟨⟨step, outcomes, verdict⟩ :: c.findings, c.classification⟩

end Course

/-! ## What a step can come to -/

namespace Verdict

def unresolved : String := "server address unresolved"

def noRoute : String := "no route to server"

def everySendFailed : String := "every send failed"

def noReply : String := "no reply"

def localAddressEchoed : String := "local address echoed"

def mappedAddressDiffers : String := "mapped address differs"

def alternatePortReached : String := "alternate port reached us"

def alternatePortBlocked : String := "alternate port blocked"

def sameMapping : String := "same mapping for both sockets"

def mappingsDiffer (first second : String) : String := s!"mappings differ ({first} vs {second})"

def noMapping : String := "no mapping observed for one socket"

def tertiaryPortReached : String := "tertiary port reached us"

def tertiaryPortBlocked : String := "tertiary port blocked"

end Verdict

def bindProbeSocket (ip : Ip) (port : UInt16) : Program (Attempted SocketAddress) := do
  let address := Endpoint.of ip port
  match ← Program.perform (.bind address) with
  | .ok socket => return .ok socket
  | .error e => return .error (.bind (.probe address e))

/-- Runs a program with a socket of its own, which is closed afterwards in any case. -/
def withSocket {α : Type} (ip : Ip) (port : UInt16)
    (use : SocketAddress → Program (Attempted α)) : Program (Attempted α) := do
  match ← bindProbeSocket ip port with
  | .error f => return .error f
  | .ok socket =>
    let result ← use socket
    Program.perform (.close socket)
    return result

namespace Session

/-- The batch that a socket sends to the primary listener, to be answered by some listener. -/
def batch (s : Session) (socket : SocketAddress) (kind : Kind) (expected : Role) : Batch where
  socket
  destination := s.server.primary
  message := .request kind
  attempts := s.settings.maxAttempts
  timeoutMs := s.settings.timeoutMs.toNat
  filter := .only (s.server.get expected)
  reference := socket.text

def probe (s : Session) (kind : Kind) (expected : Role) : Program Outcome :=
  (s.batch s.socket kind expected).run

def portRestriction (s : Session) : Program Course := do
  let o ← s.probe .portRestrictedCheck .tertiary
  if o.gotReply then
    return .concluded .portRestriction [o] Verdict.tertiaryPortReached .restricted
  else
    return .concluded .portRestriction [o] Verdict.tertiaryPortBlocked .portRestricted

/-- Whether two sockets were seen under the same address; if not, what was seen. -/
def compareMappings (first second : Outcome) : Except String Unit :=
  match first.firstObserved?, second.firstObserved? with
  | some a, some b => if a = b then .ok () else .error (Verdict.mappingsDiffer a b)
  | _, _ => .error Verdict.noMapping

/-- The second socket is open only while the mappings are compared. -/
def observeMappings (s : Session) : Program (Attempted (Outcome × Outcome)) :=
  withSocket s.localIp 0 fun second => do
    let a ← s.probe .ping .primary
    let b ← (s.batch second .ping .primary).run
    return .ok (a, b)

def symmetric (s : Session) : Program (Attempted Course) := do
  match ← s.observeMappings with
  | .error f => return .error f
  | .ok (first, second) =>
    match compareMappings first second with
    | .ok () =>
      let course ← s.portRestriction
      return .ok (course.after .symmetricNat [first, second] Verdict.sameMapping)
    | .error verdict =>
      return .ok (.concluded .symmetricNat [first, second] verdict .symmetricNat)

def fullCone (s : Session) : Program (Attempted Course) := do
  let o ← s.probe .fullConeCheck .secondary
  if o.gotReply then
    return .ok (.concluded .fullCone [o] Verdict.alternatePortReached .fullCone)
  else
    match ← s.symmetric with
    | .error f => return .error f
    | .ok course => return .ok (course.after .fullCone [o] Verdict.alternatePortBlocked)

def firewall (s : Session) : Program Course := do
  let o ← s.probe .publicCheck .secondary
  if o.gotReply then
    return .concluded .firewall [o] Verdict.alternatePortReached .openInternet
  else
    return .concluded .firewall [o] Verdict.alternatePortBlocked .symmetricFirewall

/-- Why no reply came. -/
def silence (o : Outcome) : String :=
  if o.allSendsFailed then Verdict.everySendFailed else Verdict.noReply

/-- All steps, from the first one on. -/
def reachability (s : Session) : Program (Attempted Course) := do
  let o ← s.probe .ping .primary
  if !o.gotReply then
    return .ok (.concluded .reachability [o] (silence o) .unreachable)
  else if o.everyAttemptMatched then
    let course ← s.firewall
    return .ok (course.after .reachability [o] Verdict.localAddressEchoed)
  else
    match ← s.fullCone with
    | .error f => return .error f
    | .ok course => return .ok (course.after .reachability [o] Verdict.mappedAddressDiffers)

end Session

end NatBehaviour.Discovery
