import NatBehaviour.CommandLine.Task
import NatBehaviour.Proofs.Responder.Binding
import NatBehaviour.Proofs.Settings.Duration

/-!
What the check of settings asks for, and what it leaves open. It looks at each number from below: no attempts,
no time and no handlers are refused. From above there are two limits that it does not know, the seconds that a
word can count and the permits that a listener can count. Up to these limits, settings that are valid give a
budget, and a responder that is bound is started; beyond them both come to nothing.
-/

namespace NatBehaviour.Settings

open NatBehaviour.CommandLine (Ending startServing)
open NatBehaviour.Network (Program SocketAddress World)
open NatBehaviour.Responder (Listener Service loopbackListeners narrowHost)
open NatBehaviour.Text (isBlankText)
open NatBehaviour.Wire (Listeners Role)

/-! ## What is asked for -/

theorem Probe.validate_eq_ok_iff {p : Probe} : p.validate = .ok () ↔
    isBlankText p.serverHost = false ∧ p.maxAttempts ≠ 0 ∧ p.timeoutMs ≠ 0 ∧ repeated? p.ports = none := by
  unfold Probe.validate Probe.fault?
  cases isBlankText p.serverHost <;> by_cases hattempts : p.maxAttempts = 0 <;>
    by_cases htimeout : p.timeoutMs = 0 <;> cases repeated? p.ports <;> simp [hattempts, htimeout]

theorem Responder.validate_eq_ok_iff {r : Responder} : r.validate = .ok () ↔
    r.maxInFlight ≠ 0 ∧ repeated? r.ports = none := by
  unfold Responder.validate Responder.fault?
  by_cases hhandlers : r.maxInFlight = 0 <;> cases repeated? r.ports <;> simp [hhandlers]

/-! ## What is left open -/

section Limits

variable {net : Network} {w w' : World} {p : Probe} {r : Responder} {ls : Listeners SocketAddress}
  {permits : Nat}

/-- A responder as it is when its listeners have been started. -/
def started (permits : Nat) : Service := ⟨⟨.start permits, .start permits, .start permits⟩, []⟩

theorem start_eq (permits : Nat) : Service.start permits =
    if permits ≤ maxPermits then .ok (started permits) else .error .tooManyPermits := by
  unfold Service.start
  split
  · rename_i hover
    rw [if_neg (Nat.not_le.mpr hover)]
  · rename_i hfits
    rw [if_pos (Nat.not_lt.mp hfits)]
    rfl

/-- Each listener takes its first permit and so receives. -/
theorem acquire_started (hpermits : 0 < permits) (role : Role) :
    ∃ l, ((started permits).listeners.get role).step? role .acquire = some (l, []) := by
  have hfresh : (started permits).listeners.get role = .start permits := by
    cases role <;> rfl
  simp [hfresh, Listener.step?, Listener.start, hpermits]

theorem validate_of_bound (hbound : (Responder.bind r).run net w = (.ok ls, w')) : r.validate = .ok () := by
  cases hvalid : r.validate with
  | ok u => rfl
  | error failure =>
    unfold Responder.bind at hbound
    rw [hvalid] at hbound
    cases hbound

theorem startServing_run (hbound : (Responder.bind r).run net w = (.ok ls, w')) :
    (startServing r).run net w =
      (if r.maxInFlight.toNat ≤ maxPermits then .ok (ls, started r.maxInFlight.toNat)
        else .error (.crashed .tooManyPermits), w') := by
  unfold startServing
  rw [Program.run_bind, hbound]
  by_cases hfits : r.maxInFlight.toNat ≤ maxPermits
  · simp only [start_eq, if_pos hfits]
    rfl
  · simp only [start_eq, if_neg hfits]
    rfl

/-- One attempt of those that make up the budget. -/
theorem timeout_le_budget (hp : p.validate = .ok ()) {d : Duration} (hd : p.batchBudget = .ok d) :
    0 < p.timeout.length ∧ p.timeout.length ≤ d.length := by
  obtain ⟨-, hattempts, htimeout, -⟩ := Probe.validate_eq_ok_iff.mp hp
  have hpositive : 0 < p.maxAttempts.toNat :=
    Nat.pos_of_ne_zero fun hzero => hattempts (UInt32.toNat_inj.mp hzero)
  have hwaits : 0 < p.timeoutMs.toNat :=
    Nat.pos_of_ne_zero fun hzero => htimeout (UInt64.toNat_inj.mp hzero)
  constructor
  · rw [Probe.timeout, Duration.length_ofMillis]
    exact Nat.mul_pos hwaits (by decide)
  · rw [Probe.batchBudget_eq_ok_iff.mp hd, ← p.length_timeout_mul]
    exact Nat.le_mul_of_pos_right _ hpositive

/-- What settings come to that have passed the check. Those of a client give a budget, of at least one attempt,
just if a word can count its seconds. Those of a responder that has been bound start it, so that all of its
listeners receive, just if its permits can be counted. In all other cases there is no result. -/
theorem valid_up_to_limits (hp : p.validate = .ok ()) (hbound : (Responder.bind r).run net w = (.ok ls, w')) :
    ((∃ d, p.batchBudget = .ok d ∧ 0 < p.timeout.length ∧ p.timeout.length ≤ d.length) ↔
      p.timeoutMs.toNat * p.maxAttempts.toNat / 1000 ≤ 2 ^ 64 - 1) ∧
    (p.batchBudget = .error .durationOverflow ↔
      2 ^ 64 - 1 < p.timeoutMs.toNat * p.maxAttempts.toNat / 1000) ∧
    (startServing r).run net w =
      (if r.maxInFlight.toNat ≤ 2 ^ 61 - 1 then .ok (ls, started r.maxInFlight.toNat)
        else .error (.crashed .tooManyPermits), w') ∧
    ∀ role, ∃ l, ((started r.maxInFlight.toNat).listeners.get role).step? role .acquire = some (l, []) := by
  have hsize : UInt64.size = 2 ^ 64 - 1 + 1 := rfl
  have hhandlers : 0 < r.maxInFlight.toNat := by
    obtain ⟨hnone, -⟩ := Responder.validate_eq_ok_iff.mp (validate_of_bound hbound)
    exact Nat.pos_of_ne_zero fun hzero => hnone (UInt64.toNat_inj.mp hzero)
  refine ⟨?_, ?_, startServing_run hbound, acquire_started hhandlers⟩
  · rw [← Nat.lt_add_one_iff, ← hsize, ← Probe.budgetMs, ← Probe.exists_batchBudget_iff]
    exact exists_congr fun d => and_iff_left_of_imp (timeout_le_budget hp)
  · rw [Probe.batchBudget_eq_error_iff, Probe.budgetMs, hsize, Nat.add_one_le_iff]
    exact and_iff_right rfl

end Limits

/-! ## At the limits -/

/-- A client that waits for as long as can be said, so many times. -/
def patient (attempts : UInt32) : Probe :=
  { Probe.default with timeoutMs := 18446744073709551615, maxAttempts := attempts }

/-- A responder on the loopback interface that handles so many datagrams at once. -/
def handling (permits : UInt64) : Responder :=
  { Responder.default with bindIp := .v4 .loopback, maxInFlight := permits }

theorem bound_handling (permits : UInt64) (hpermits : permits ≠ 0) :
    ∃ w, (Responder.bind (handling permits)).run (narrowHost.network fun _ _ => []) (.start []) =
      (.ok loopbackListeners, w) := by
  have hvalid : (handling permits).validate = .ok () := Responder.validate_eq_ok_iff.mpr ⟨hpermits, rfl⟩
  unfold Responder.bind
  rw [hvalid]
  exact ⟨_, Prod.ext rfl rfl⟩

/-- The longest budget, of which 615 seconds carry from the milliseconds, and the largest number of permits. -/
theorem valid_up_to_limits_reached :
    (∃ d, (patient 1000).batchBudget = .ok d ∧ (patient 1000).timeout.length ≤ d.length) ∧
    ∃ w, (startServing (handling 2305843009213693951)).run (narrowHost.network fun _ _ => []) (.start []) =
      (.ok (loopbackListeners, started 2305843009213693951), w) := by
  have hp : (patient 1000).validate = .ok () :=
    Probe.validate_eq_ok_iff.mpr ⟨by decide, by decide, by decide, rfl⟩
  obtain ⟨w, hbound⟩ := bound_handling 2305843009213693951 (by decide)
  obtain ⟨hbudget, -, hserving, -⟩ := valid_up_to_limits hp hbound
  obtain ⟨d, hd, -, hlength⟩ := hbudget.mpr (by decide)
  exact ⟨⟨d, hd, hlength⟩, w, hserving⟩

/-- One attempt more, and one handler more: the settings are valid and the responder can be bound all the same,
but there is no budget, and the responder cannot be started. -/
theorem valid_beyond_limits :
    ((patient 1001).validate = .ok () ∧ (patient 1001).batchBudget = .error .durationOverflow) ∧
    (handling 2305843009213693952).validate = .ok () ∧
    (∃ w, (Responder.bind (handling 2305843009213693952)).run (narrowHost.network fun _ _ => []) (.start []) =
      (.ok loopbackListeners, w)) ∧
    Service.start (handling 2305843009213693952).maxInFlight.toNat = .error .tooManyPermits := by
  refine ⟨⟨?_, ?_⟩, ?_, bound_handling _ (by decide), ?_⟩
  · exact Probe.validate_eq_ok_iff.mpr ⟨by decide, by decide, by decide, rfl⟩
  · exact Probe.batchBudget_eq_error_iff.mpr ⟨rfl, by decide⟩
  · exact Responder.validate_eq_ok_iff.mpr ⟨by decide, rfl⟩
  · rw [start_eq]
    exact if_neg (by decide)

end NatBehaviour.Settings
