import NatBehaviour.Network.Program
import NatBehaviour.Probe.Outcome

/-!
A batch of probes: the same message is sent some number of times, one attempt after the other, and
each attempt waits a limited time for a usable reply.
-/

namespace NatBehaviour.Probe

open NatBehaviour.Json (Bytes)
open NatBehaviour.Net (Endpoint)
open NatBehaviour.Network (Program SocketAddress)
open NatBehaviour.Wire (Message)

structure Batch where
  socket : SocketAddress
  destination : Endpoint
  message : Message
  attempts : UInt32
  /-- How long each attempt waits, in milliseconds. -/
  timeoutMs : Nat
  filter : Filter
  /-- The text of the address that a reply has to report to count as a match. -/
  reference : String
  deriving DecidableEq, Repr

namespace Batch

/-- Counts what an attempt has read. A reply without an address reports the empty text. -/
def count (b : Batch) (o : Outcome) : Reading → Outcome
  | .reply message => o.countReply b.reference (message.observed.getD "")
  | .onlyUndecodable => o.countDecodeFailure
  | .nothing => o.countTimeout

def attempt (b : Batch) (o : Outcome) : Program Outcome := do
  if ← Program.perform (.send b.socket b.destination b.message.encode) then
    return b.count o (← Program.perform (.await b.socket b.timeoutMs b.filter))
  else
    return o.countSendFailure

def attemptTimes (b : Batch) : Nat → Outcome → Program Outcome
  | 0, o => return o
  | n + 1, o => do
    let o ← b.attempt o
    b.attemptTimes n o

def run (b : Batch) : Program Outcome := b.attemptTimes b.attempts.toNat (.start b.attempts)

end Batch

end NatBehaviour.Probe
