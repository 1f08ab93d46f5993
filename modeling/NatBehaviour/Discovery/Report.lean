import NatBehaviour.Discovery.Classification
import NatBehaviour.Probe.Outcome
import NatBehaviour.Text.Uuid

/-!
The report of a discovery: the steps that were taken, what each of them found, and the conclusion.
-/

namespace NatBehaviour.Discovery

open NatBehaviour.Json (Reader Record Member Value Variants)
open NatBehaviour.Probe (Outcome)
open NatBehaviour.Text (Uuid)

inductive Step
  | reachability
  | firewall
  | fullCone
  | symmetricNat
  | portRestriction
  deriving DecidableEq, Repr

namespace Step

/-- All steps, in the order in which they can come. -/
def all : List Step := [.reachability, .firewall, .fullCone, .symmetricNat, .portRestriction]

/-- The name in a report. -/
def name : Step → String
  | .reachability => "Reachability"
  | .firewall => "Firewall"
  | .fullCone => "FullCone"
  | .symmetricNat => "SymmetricNat"
  | .portRestriction => "PortRestriction"

def variants : Variants Step := ⟨all, name⟩

/-- The name for people. -/
def title : Step → String
  | .reachability => "Reachability"
  | .firewall => "Firewall"
  | .fullCone => "Full-cone"
  | .symmetricNat => "Symmetric"
  | .portRestriction => "Port restriction"

end Step

/-- What one step found. -/
structure Finding where
  step : Step
  /-- The batches of probes that were sent; two where the mappings of two sockets are compared. -/
  outcomes : List Outcome
  verdict : String
  deriving DecidableEq, Repr

namespace Finding

def record : Record Finding where
  name := "StepRecord"
  initial := ⟨.reachability, [], ""⟩
  complete := false
  members :=
    [.of "step" Step.variants.read fun v f => { f with step := v },
     .of "outcomes" (Json.readList Outcome.record.read) fun v f => { f with outcomes := v },
     .of "verdict" Json.readString fun v f => { f with verdict := v }]

def value (f : Finding) : Value :=
  .object
    [("step", .text f.step.name), ("outcomes", .list (f.outcomes.map Outcome.value)),
     ("verdict", .text f.verdict)]

def summary (f : Finding) : String := f.step.title ++ ": " ++ f.verdict

end Finding

def readUuid : Reader Uuid := .accept Uuid.ofString (Json.readTextAs Uuid.description)

structure Report where
  runId : Uuid
  /-- Milliseconds since the beginning of 1970. -/
  startedAtMs : Int64
  elapsedMs : UInt64
  /-- The address of the first socket, if the run came to open it. -/
  localAddress : Option String
  /-- The findings, in the order of the steps. -/
  findings : List Finding
  classification : Classification
  deriving DecidableEq, Repr

namespace Report

def steps (r : Report) : List Step := r.findings.map (·.step)

/-- The verdicts in one line, with the conclusion at the end. -/
def summary (r : Report) : String :=
  " → ".intercalate (r.findings.map Finding.summary ++ ["result: " ++ r.classification.title])

def record : Record Report where
  name := "DiscoveryReport"
  initial := ⟨⟨0⟩, 0, 0, none, [], .openInternet⟩
  complete := false
  members :=
    [.of "run_id" readUuid fun v r => { r with runId := v },
     .of "started_at_ms" Json.readInt64 fun v r => { r with startedAtMs := v },
     .of "elapsed_ms" Json.readUInt64 fun v r => { r with elapsedMs := v },
     { Member.of "local_addr" (Json.readOptional Json.readString)
         fun v r => { r with localAddress := v } with
       optional := true },
     .of "steps" (Json.readList Finding.record.read) fun v r => { r with findings := v },
     .of "classification" Classification.variants.read fun v r => { r with classification := v }]

def value (r : Report) : Value :=
  .object
    [("run_id", .text r.runId.text),
     ("started_at_ms", .integer r.startedAtMs.toInt),
     ("elapsed_ms", .integer r.elapsedMs.toNat),
     ("local_addr", r.localAddress.elim .null .text),
     ("steps", .list (r.findings.map Finding.value)),
     ("classification", .text r.classification.name)]

end Report

end NatBehaviour.Discovery
