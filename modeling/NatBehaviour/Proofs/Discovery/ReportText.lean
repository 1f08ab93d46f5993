import NatBehaviour.CommandLine.Task
import NatBehaviour.Proofs.Json.Codec
import NatBehaviour.Proofs.Text.Uuid

/-!
A report as it is written. Outcomes, findings and reports are described field by field; that is all that it
takes for a report to be read back from its text, in either of the two forms.
-/

namespace NatBehaviour

open NatBehaviour.Json (Codec Described Layout)
open NatBehaviour.Text

def Probe.Outcome.described : Described Outcome.record Outcome.value where
  fields :=
    [.of "attempts" .uint32 (·.attempts) fun v o => { o with attempts := v },
     .of "send_failures" .uint32 (·.sendFailures) fun v o => { o with sendFailures := v },
     .of "timeouts" .uint32 (·.timeouts) fun v o => { o with timeouts := v },
     .of "decode_failures" .uint32 (·.decodeFailures) fun v o => { o with decodeFailures := v },
     .of "address_matches" .uint32 (·.addressMatches) fun v o => { o with addressMatches := v },
     .of "observed" (.list (.text "a string")) (·.observed) fun v o => { o with observed := v }]
  distinct := by decide
  members := rfl
  value_eq _ := rfl
  rebuilt := by
    intro ⟨_, _, _, _, _, _⟩
    rfl

namespace Discovery

def stepCodec : Codec Step := .variants Step.variants fun step => by cases step <;> rfl

def classificationCodec : Codec Classification := .variants Classification.variants fun c => by cases c <;> rfl

def uuidCodec : Codec Uuid := .accept (.text Uuid.description) Uuid.ofString Uuid.text Uuid.ofString_text

/-- The text of an address, or none: a text begins with a quote. -/
def addressCodec : Codec (Option String) :=
  .optional (.text "a string") fun _ _ h => by
    rw [h.head]
    decide

def Finding.described : Described Finding.record Finding.value where
  fields :=
    [.of "step" stepCodec (·.step) fun v f => { f with step := v },
     .of "outcomes" (.list Probe.Outcome.described.codec) (·.outcomes) fun v f => { f with outcomes := v },
     .of "verdict" (.text "a string") (·.verdict) fun v f => { f with verdict := v }]
  distinct := by decide
  members := rfl
  value_eq _ := rfl
  rebuilt := by
    intro ⟨_, _, _⟩
    rfl

namespace Report

def described : Described record value where
  fields :=
    [.of "run_id" uuidCodec (·.runId) fun v r => { r with runId := v },
     .of "started_at_ms" .int64 (·.startedAtMs) fun v r => { r with startedAtMs := v },
     .of "elapsed_ms" (.uint64 "u64") (·.elapsedMs) fun v r => { r with elapsedMs := v },
     ⟨"local_addr", addressCodec, (·.localAddress), fun v r => { r with localAddress := v }, true⟩,
     .of "steps" (.list Finding.described.codec) (·.findings) fun v r => { r with findings := v },
     .of "classification" classificationCodec (·.classification) fun v r => { r with classification := v }]
  distinct := by decide
  members := rfl
  value_eq _ := rfl
  rebuilt := by
    intro ⟨_, _, _, _, _, _⟩
    rfl

/-- A report is read back from its compact text, from its text over several lines, and from what a
discovery prints, which ends in a line break. -/
theorem read_text (r : Report) :
    Json.readAll record.read (Utf8.ofString r.value.compactText) = .ok r ∧
      Json.readAll record.read (Utf8.ofString r.value.prettyText) = .ok r ∧
      Json.readAll record.read (Utf8.ofString (CommandLine.reportText true r)) = .ok r := by
  have hcompact : Utf8.ofString r.value.compactText = Utf8.encode (Layout.compact.chars r.value) := by
    rw [Utf8.ofString, Json.Value.compactText, String.toList_ofList]
    rfl
  have hpretty : Utf8.ofString r.value.prettyText = Utf8.encode ((Layout.indented 0).chars r.value) := by
    rw [Utf8.ofString, Json.Value.prettyText, String.toList_ofList]
    rfl
  have hprinted : Utf8.ofString (CommandLine.reportText true r) =
      Utf8.ofString r.value.prettyText ++ Utf8.encode ['\n'] := by
    rw [CommandLine.reportText, if_pos rfl, Utf8.ofString, String.toList_append, Utf8.encode_append]
    rfl
  have hbreak : Json.Blanks (Utf8.encode ['\n']) := by
    intro b hb
    obtain rfl := List.mem_singleton.mp hb
    rfl
  have hlines : Json.readAll record.read (Utf8.ofString r.value.prettyText) = .ok r := by
    rw [hpretty]
    exact described.codec.readAll_write (.indented 0) r
  refine ⟨?_, hlines, ?_⟩
  · rw [hcompact]
    exact described.codec.readAll_write .compact r
  · rw [hprinted]
    exact described.reads.readAll_append hlines hbreak

end Report

end Discovery

end NatBehaviour
