import NatBehaviour.Json.Record
import NatBehaviour.Json.Value

/-!
The tally of a batch of probes. Every attempt is counted once: as a send that failed, as an attempt
that saw nothing, as one that saw nothing but datagrams that do not decode, or as a usable reply.
-/

namespace NatBehaviour.Probe

open NatBehaviour.Json (Record Member Value)

structure Outcome where
  attempts : UInt32
  sendFailures : UInt32
  /-- Attempts that saw nothing from an accepted source. -/
  timeouts : UInt32
  /-- Attempts that saw only datagrams that do not decode. -/
  decodeFailures : UInt32
  /-- Usable replies that report the reference address. -/
  addressMatches : UInt32
  /-- The addresses that the usable replies report, in the order of arrival. -/
  observed : List String
  deriving DecidableEq, Repr

namespace Outcome

def start (attempts : UInt32) : Outcome := ⟨attempts, 0, 0, 0, 0, []⟩

def replies (o : Outcome) : UInt32 := o.observed.length.toUInt32

def gotReply (o : Outcome) : Bool := !o.observed.isEmpty

def allSendsFailed (o : Outcome) : Bool := 0 < o.attempts && o.sendFailures = o.attempts

/-- Every attempt got a reply that reports the reference address. -/
def everyAttemptMatched (o : Outcome) : Bool := 0 < o.attempts && o.addressMatches = o.attempts

def firstObserved? (o : Outcome) : Option String := o.observed.head?

def countSendFailure (o : Outcome) : Outcome := { o with sendFailures := o.sendFailures + 1 }

def countTimeout (o : Outcome) : Outcome := { o with timeouts := o.timeouts + 1 }

def countDecodeFailure (o : Outcome) : Outcome := { o with decodeFailures := o.decodeFailures + 1 }

/-- Counts a usable reply. -/
def countReply (reference observed : String) (o : Outcome) : Outcome :=
  { o with
    addressMatches := if observed = reference then o.addressMatches + 1 else o.addressMatches
    observed := o.observed ++ [observed] }

def record : Record Outcome where
  name := "ProbeOutcome"
  initial := start 0
  complete := false
  members :=
    [.of "attempts" Json.readUInt32 fun v o => { o with attempts := v },
     .of "send_failures" Json.readUInt32 fun v o => { o with sendFailures := v },
     .of "timeouts" Json.readUInt32 fun v o => { o with timeouts := v },
     .of "decode_failures" Json.readUInt32 fun v o => { o with decodeFailures := v },
     .of "address_matches" Json.readUInt32 fun v o => { o with addressMatches := v },
     .of "observed" (Json.readList Json.readString) fun v o => { o with observed := v }]

def value (o : Outcome) : Value :=
  .object
    [("attempts", .integer o.attempts.toNat),
     ("send_failures", .integer o.sendFailures.toNat),
     ("timeouts", .integer o.timeouts.toNat),
     ("decode_failures", .integer o.decodeFailures.toNat),
     ("address_matches", .integer o.addressMatches.toNat),
     ("observed", .list (o.observed.map .text))]

end Outcome

end NatBehaviour.Probe
