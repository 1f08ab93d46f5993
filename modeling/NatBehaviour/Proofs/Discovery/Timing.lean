import Mathlib.Algebra.GroupWithZero.Nat
import Mathlib.Algebra.Order.Group.Nat
import NatBehaviour.Proofs.Discovery.Batches
import NatBehaviour.Proofs.Probe.Timing

/-!
How long a discovery takes. Time passes only in its batches, so what their outcomes say about the attempts
that waited bounds the time of a run. The steps that a run can have behind it when it ends bound the number
of its batches.
-/

namespace NatBehaviour.Discovery

open NatBehaviour.Net (Endpoint)
open NatBehaviour.Network (Action Moment Program World)
open NatBehaviour.Probe (Batch Outcome fourPings)
open NatBehaviour.Responder (restrictingRelay)
open NatBehaviour.Wire (Listeners)

variable {net : Network} {w w' : World} {h : List Moment} {os : List (Step × Outcome)}

/-! ## Batches -/

theorem clock_idle {action : Action} {answer : action.Answer} (calm : Idle action)
    (taken : w.perform net action = (answer, w')) : w'.clock = w.clock := by
  have hwaits : action.waits = false := by
    cases action with
    | await socket timeoutMs filter => exact calm.elim
    | _ => rfl
  have hclock : (w.perform net action).2.clock = w.clock := World.clock_perform hwaits
  rwa [taken] at hclock

/-- The outcomes of some batches bound the time that they took. -/
theorem Batches.lasts {p : Settings.Probe} {server : Listeners Endpoint}
    (hb : Batches net p server w h os w') :
    w.clock ≤ w'.clock ∧
      (net.ErrorFree → w.clock + (os.map (·.2.silences)).sum * p.timeoutMs.toNat ≤ w'.clock) ∧
      w'.clock ≤ w.clock + (os.map (·.2.waits)).sum * p.timeoutMs.toNat := by
  induction hb with
  | nil w => simp
  | idle calm taken _ ih => rwa [clock_idle calm taken] at ih
  | batch sent _ ih =>
    obtain ⟨honward, hleast, hmost⟩ := Batch.run_lasts sent
    obtain ⟨honward', hleast', hmost'⟩ := ih
    simp only [Step.batch, Session.batch] at hleast hmost
    simp only [List.map_cons, List.sum_cons, Nat.add_mul]
    refine ⟨Nat.le_trans honward honward', fun hnet => ?_, by omega⟩
    have hfirst := hleast hnet
    have hrest := hleast' hnet
    omega

theorem Batches.waits_le {p : Settings.Probe} {server : Listeners Endpoint}
    (hb : Batches net p server w h os w') :
    (os.map (·.2.waits)).sum ≤ os.length * p.maxAttempts.toNat := by
  induction hb with
  | nil w => simp
  | idle _ _ _ ih => exact ih
  | batch sent _ ih =>
    have hfirst := Batch.waits_le sent
    simp only [Step.batch, Session.batch] at hfirst
    simp only [List.map_cons, List.sum_cons, List.length_cons, Nat.add_mul]
    omega

/-- The number of some batches bounds the time that they took. -/
theorem Batches.clock_le {p : Settings.Probe} {server : Listeners Endpoint} {n : Nat}
    (hb : Batches net p server w h os w') (hlength : os.length ≤ n) :
    w'.clock ≤ w.clock + n * p.maxAttempts.toNat * p.timeoutMs.toNat :=
  calc w'.clock
    _ ≤ w.clock + (os.map (·.2.waits)).sum * p.timeoutMs.toNat := hb.lasts.2.2
    _ ≤ w.clock + os.length * p.maxAttempts.toNat * p.timeoutMs.toNat :=
      Nat.add_le_add_left (Nat.mul_le_mul_right _ hb.waits_le) _
    _ ≤ w.clock + n * p.maxAttempts.toNat * p.timeoutMs.toNat :=
      Nat.add_le_add_left (Nat.mul_le_mul_right _ (Nat.mul_le_mul_right _ hlength)) _

/-! ## Runs -/

/-- The most batches that a run sends if it ends with a step. -/
def Step.batches : Step → Nat
  | .reachability => 1
  | .firewall | .fullCone => 2
  | .symmetricNat => 4
  | .portRestriction => 5

theorem Explains.length_outcomes_le {attempts : UInt32} {own : Option String} {findings : List Finding}
    {k : Classification} (he : Explains attempts own findings k) :
    ∃ last, (findings.map (·.step)).getLast? = some last ∧
      (outcomesOf findings).length ≤ last.batches := by
  cases he <;> exact ⟨_, rfl, by simp [outcomesOf, Step.batches]⟩

namespace Client

variable {c : Client} {stamp : Stamp} {r : Attempted Report}

/-- The outcomes in a report bound the time that the run took from below, and the step at which it ended
does from above. -/
theorem report_lasts {report : Report} (hr : (c.run stamp).run net w = (.ok report, w')) :
    (net.ErrorFree →
      w.clock + ((outcomesOf report.findings).map (·.2.silences)).sum * c.settings.timeoutMs.toNat ≤
        w'.clock) ∧
      ∃ last, report.steps.getLast? = some last ∧
        w'.clock ≤
          w.clock + last.batches * c.settings.maxAttempts.toNat * c.settings.timeoutMs.toNat := by
  obtain ⟨server, hserver⟩ := c.exists_server net
  obtain ⟨h, hruns⟩ := Program.runs_of_run hr
  obtain ⟨os, hb, hok, -⟩ := run_batches hruns hserver
  obtain rfl := hok report rfl
  have hexplains := (report_explains hr report.classification).mpr rfl
  obtain ⟨last, hlast, hlength⟩ := hexplains.length_outcomes_le
  exact ⟨hb.lasts.2.1, last, hlast, hb.clock_le hlength⟩

/-- A run that fails has sent no more than two batches. -/
theorem failure_lasts {f : Failure} (hr : (c.run stamp).run net w = (.error f, w')) :
    w.clock ≤ w'.clock ∧
      w'.clock ≤ w.clock + 2 * c.settings.maxAttempts.toNat * c.settings.timeoutMs.toNat := by
  obtain ⟨server, hserver⟩ := c.exists_server net
  obtain ⟨h, hruns⟩ := Program.runs_of_run hr
  obtain ⟨os, hb, -, hfailed⟩ := run_batches hruns hserver
  have hsteps := hfailed f rfl
  have hlength : os.length ≤ 2 := by
    rw [← List.length_map (f := Prod.fst)]
    rcases List.mem_cons.mp hsteps with hnone | hboth
    · simp [hnone]
    · simp [List.mem_singleton.mp hboth]
  exact ⟨hb.lasts.1, hb.clock_le hlength⟩

/-- A wait ends by its deadline, and where no error cuts it short before that only with a usable reply, however
many datagrams arrive. So the outcome of a batch bounds its time: no attempt took more than its time, and
without errors every attempt that got no usable reply took all of it. A run takes no more than the batches of
the steps up to its last one, with as many attempts as the settings say, and no more than two of them if it
fails. -/
theorem run_keeps_time (net : Network) (w : World) :
    (∀ socket timeoutMs filter reading w',
      w.perform net (.await socket timeoutMs filter) = (reading, w') →
        w.clock ≤ w'.clock ∧ w'.clock ≤ w.clock + timeoutMs ∧
          (net.failure w.log socket = none → w'.clock < w.clock + timeoutMs →
            ∃ m d, reading = .reply m ∧ w.Holds socket d ∧ filter.judge d = .usable m)) ∧
    (∀ (b : Batch) o w', b.run.run net w = (o, w') →
      (net.ErrorFree → w.clock + (o.timeouts.toNat + o.decodeFailures.toNat) * b.timeoutMs ≤ w'.clock) ∧
        w'.clock ≤
          w.clock + (o.timeouts.toNat + o.decodeFailures.toNat + o.replies.toNat) * b.timeoutMs) ∧
    (∀ (c : Client) stamp report w', (c.run stamp).run net w = (.ok report, w') →
      (net.ErrorFree →
        w.clock + ((outcomesOf report.findings).map (·.2.silences)).sum * c.settings.timeoutMs.toNat ≤
          w'.clock) ∧
        ∃ last, report.steps.getLast? = some last ∧
          w'.clock ≤
            w.clock + last.batches * c.settings.maxAttempts.toNat * c.settings.timeoutMs.toNat) ∧
    ∀ (c : Client) stamp failure w', (c.run stamp).run net w = (.error failure, w') →
      w.clock ≤ w'.clock ∧
        w'.clock ≤ w.clock + 2 * c.settings.maxAttempts.toNat * c.settings.timeoutMs.toNat := by
  refine ⟨?_, ?_, ?_, ?_⟩
  · intro socket timeoutMs filter reading w' hawait
    exact World.clock_await hawait
  · intro b o w' hrun
    obtain ⟨h, hr⟩ := Program.runs_of_run hrun
    exact (Batch.run_lasts hr).2
  · intro c stamp report w' hrun
    exact report_lasts hrun
  · intro c stamp failure w' hrun
    exact failure_lasts hrun

/-- Behind a translator that drops what comes from the secondary listener, a run takes all steps, and one of
its batches waits in vain. Where no socket is bound, four pings wait in vain as well. -/
theorem run_keeps_time_restricted :
    (∃ report w',
      (Client.default.run ⟨⟨0⟩, 0⟩).run (restrictingRelay [20]) (.start []) = (.ok report, w') ∧
        15000 ≤ w'.clock ∧ w'.clock ≤ 75000) ∧
    ∃ w', fourPings.run.run (restrictingRelay [20]) (.start []) = (⟨4, 0, 4, 0, 0, []⟩, w') ∧
      w'.clock = 400 := by
  have hnet : (restrictingRelay [20]).ErrorFree := fun _ _ => rfl
  obtain ⟨-, hbatch, hrun, -⟩ := run_keeps_time (restrictingRelay [20]) (.start [])
  constructor
  · have hresult : ((Client.default.run ⟨⟨0⟩, 0⟩).run (restrictingRelay [20]) (.start [])).1.toOption.map
        (fun report => (report.steps.getLast?, ((outcomesOf report.findings).map (·.2.silences)).sum)) =
          some (some .portRestriction, 3) := by decide +kernel
    obtain ⟨report, w', hreport, hshown⟩ := exists_report hresult
    obtain ⟨hsteps, hsilences⟩ := Prod.mk.inj hshown
    obtain ⟨hleast, last, hlast, hmost⟩ := hrun _ _ _ _ hreport
    have hleast := hleast hnet
    rw [hsilences] at hleast
    obtain rfl := Option.some.inj (hlast.symm.trans hsteps)
    exact ⟨report, w', hreport, hleast, hmost⟩
  · have hpings : (fourPings.run.run (restrictingRelay [20]) (.start [])).1 = ⟨4, 0, 4, 0, 0, []⟩ := by
      decide +kernel
    obtain ⟨hleast, hmost⟩ := hbatch fourPings _ _ (Prod.ext hpings rfl)
    exact ⟨_, Prod.ext hpings rfl, Nat.le_antisymm hmost (hleast hnet)⟩

end Client

end NatBehaviour.Discovery
