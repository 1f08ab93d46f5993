import NatBehaviour.Probe.Batch
import NatBehaviour.Proofs.Network.Runs

/-!
Runs of a batch, taken apart into attempts. An attempt sends and, if that worked, waits; a batch is one
attempt after the other.
-/

namespace NatBehaviour.Probe

open NatBehaviour.Network (Moment World)

namespace Batch

variable {b : Batch} {o o' : Outcome} {net : Network} {w w' : World} {h : List Moment}

theorem attempt_runs (hr : (b.attempt o).Runs net w h o' w') :
    (w.send net b.socket b.destination b.message.encode = (false, w') ∧
      h = [⟨w, .send b.socket b.destination b.message.encode, false⟩] ∧ o' = o.countSendFailure) ∨
    ∃ w₁ r, w.send net b.socket b.destination b.message.encode = (true, w₁) ∧
      w₁.await net b.socket b.timeoutMs b.filter = (r, w') ∧
      h = [⟨w, .send b.socket b.destination b.message.encode, true⟩,
        ⟨w₁, .await b.socket b.timeoutMs b.filter, r⟩] ∧ o' = b.count o r := by
  obtain ⟨h₁, h₂, sent, w₁, rfl, hsend, rest⟩ := hr.bind
  obtain ⟨rfl, hw₁⟩ := hsend.perform
  cases sent with
  | false =>
    obtain ⟨rfl, rfl, rfl⟩ := rest.pure
    exact .inl ⟨hw₁, rfl, rfl⟩
  | true =>
    obtain ⟨h₃, h₄, r, w₂, rfl, hawait, hdone⟩ := rest.bind
    obtain ⟨rfl, hw₂⟩ := hawait.perform
    obtain ⟨rfl, rfl, rfl⟩ := hdone.pure
    exact .inr ⟨w₁, r, hw₁, hw₂, rfl, rfl⟩

theorem attemptTimes_runs_zero (hr : (b.attemptTimes 0 o).Runs net w h o' w') :
    h = [] ∧ o' = o ∧ w' = w := hr.pure

theorem attemptTimes_runs_succ {n : Nat} (hr : (b.attemptTimes (n + 1) o).Runs net w h o' w') :
    ∃ h₁ h₂ o₁ w₁, h = h₁ ++ h₂ ∧ (b.attempt o).Runs net w h₁ o₁ w₁ ∧
      (b.attemptTimes n o₁).Runs net w₁ h₂ o' w' := hr.bind

/-- What an attempt has read adds at most one entry, the address that a reply reports. -/
theorem observed_count (b : Batch) (o : Outcome) (r : Reading) :
    (b.count o r).observed =
      match r with
      | .reply m => o.observed ++ [m.observed.getD ""]
      | _ => o.observed := by
  cases r <;> rfl

end Batch

end NatBehaviour.Probe
