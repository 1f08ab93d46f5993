import NatBehaviour.Proofs.Network.Clock
import NatBehaviour.Proofs.Probe.Accounting
import NatBehaviour.Proofs.Probe.Attempts

/-!
How long a batch takes. An attempt takes no more than its time, and one that cannot send takes none; one that
waits in vain takes the whole of it, unless an error cuts it short. So the outcome of a batch bounds the time
that it took from above, and where there are no errors from below.
-/

namespace NatBehaviour.Probe

open NatBehaviour.Network (Moment World)

namespace Attempt

/-- An attempt that waits until its time is over. -/
def waitsInVain : Attempt → Bool
  | .read .nothing | .read .onlyUndecodable => true
  | _ => false

/-- An attempt that waits at all. -/
def waits : Attempt → Bool
  | .unsent => false
  | .read _ => true

theorem countP_waitsInVain (attempts : List Attempt) :
    attempts.countP waitsInVain =
      attempts.count (.read .nothing) + attempts.count (.read .onlyUndecodable) := by
  induction attempts with
  | nil => rfl
  | cons a rest ih =>
    simp only [List.countP_cons, List.count_cons, ih]
    rcases a with _ | _ | _ | _ <;> simp [waitsInVain] <;> omega

theorem countP_waits (attempts : List Attempt) :
    attempts.countP waits = attempts.countP waitsInVain + (attempts.filterMap observed?).length := by
  rw [List.length_filterMap_eq_countP]
  induction attempts with
  | nil => rfl
  | cons a rest ih =>
    simp only [List.countP_cons, ih]
    rcases a with _ | _ | _ | _ <;> simp [waits, waitsInVain, observed?] <;> omega

end Attempt

namespace Outcome

/-- The attempts that waited in vain. -/
def silences (o : Outcome) : Nat := o.timeouts.toNat + o.decodeFailures.toNat

/-- The attempts that waited, in vain or for a reply. -/
def waits (o : Outcome) : Nat := o.silences + o.replies.toNat

end Outcome

namespace Batch

variable {b : Batch} {o o' : Outcome} {net : Network} {w w' : World} {h : List Moment}

/-- Some attempts take their time: all of it where they wait in vain and there are no errors. -/
structure Lasts (b : Batch) (net : Network) (attempts : List Attempt) (w w' : World) : Prop where
  onward : w.clock ≤ w'.clock
  least : net.ErrorFree → w.clock + attempts.countP Attempt.waitsInVain * b.timeoutMs ≤ w'.clock
  most : w'.clock ≤ w.clock + attempts.countP Attempt.waits * b.timeoutMs

theorem attempt_lasts (hr : (b.attempt o).Runs net w h o' w') :
    ∃ a, o' = b.enter o a ∧ b.Lasts net [a] w w' := by
  rcases attempt_runs hr with ⟨hsend, -, rfl⟩ | ⟨w₁, r, hsend, hawait, -, rfl⟩
  · have hclock := World.clock_send hsend
    refine ⟨.unsent, rfl, Nat.le_of_eq hclock.symm, fun _ => ?_, ?_⟩
    · simp [Attempt.waitsInVain, hclock]
    · simp [Attempt.waits, hclock]
  · have hclock := World.clock_send hsend
    obtain ⟨hfirst, hlast, hreply⟩ := World.clock_await hawait
    refine ⟨.read r, rfl, by omega, fun hnet => ?_, ?_⟩
    · have hreply := hreply (hnet _ _)
      cases r with
      | reply m =>
        simp [Attempt.waitsInVain]
        omega
      | _ =>
        simp at hreply
        simp [Attempt.waitsInVain]
        omega
    · simp [Attempt.waits]
      omega

theorem Lasts.append {first rest : List Attempt} {w₁ : World} (h : b.Lasts net first w w₁)
    (h' : b.Lasts net rest w₁ w') : b.Lasts net (first ++ rest) w w' where
  onward := Nat.le_trans h.onward h'.onward
  least := by
    intro hnet
    have hfirst := h.least hnet
    have hrest := h'.least hnet
    rw [List.countP_append, Nat.add_mul]
    omega
  most := by
    have hfirst := h.most
    have hrest := h'.most
    rw [List.countP_append, Nat.add_mul]
    omega

theorem attemptTimes_lasts {n : Nat} (hr : (b.attemptTimes n o).Runs net w h o' w') :
    ∃ attempts : List Attempt, attempts.length = n ∧ o' = attempts.foldl b.enter o ∧
      b.Lasts net attempts w w' := by
  induction n generalizing o w h with
  | zero =>
    obtain ⟨-, rfl, rfl⟩ := attemptTimes_runs_zero hr
    exact ⟨[], rfl, rfl, by simp, by simp, by simp⟩
  | succ n ih =>
    obtain ⟨h₁, h₂, o₁, w₁, -, hfirst, hrest⟩ := attemptTimes_runs_succ hr
    obtain ⟨a, rfl, ha⟩ := attempt_lasts hfirst
    obtain ⟨attempts, hlength, rfl, hattempts⟩ := ih hrest
    exact ⟨a :: attempts, by simp [hlength], rfl, ha.append hattempts⟩

/-- The outcome of a batch bounds the time that it took. -/
theorem run_lasts (hr : b.run.Runs net w h o w') :
    w.clock ≤ w'.clock ∧ (net.ErrorFree → w.clock + o.silences * b.timeoutMs ≤ w'.clock) ∧
      w'.clock ≤ w.clock + o.waits * b.timeoutMs := by
  obtain ⟨attempts, hlength, rfl, hlasts⟩ := attemptTimes_lasts hr
  have haccounts := Accounts.ofAttempts hlength
  have hreplies := (hlength ▸ haccounts.toTallied).replies
  rw [haccounts.observed] at hreplies
  have hsilences := Attempt.countP_waitsInVain attempts
  rw [← haccounts.timeouts, ← haccounts.decodeFailures] at hsilences
  have hwaits := Attempt.countP_waits attempts
  rw [hsilences, ← hreplies] at hwaits
  have hleast := hlasts.least
  have hmost := hlasts.most
  rw [hsilences] at hleast
  rw [hwaits] at hmost
  exact ⟨hlasts.onward, hleast, hmost⟩

/-- A batch waits no more often than it tries. -/
theorem waits_le (hr : b.run.Runs net w h o w') : o.waits ≤ b.attempts.toNat := by
  have htallied := Tallied.run hr.returns
  have hcounted := htallied.counted
  have hreplies := htallied.replies
  simp only [Outcome.waits, Outcome.silences]
  omega

end Batch

end NatBehaviour.Probe
