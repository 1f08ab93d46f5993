import NatBehaviour.Probe.Batch
import NatBehaviour.Proofs.Network.Runs

/-!
The tally of a batch counts every attempt exactly once, whatever the network does. The counters have 32
bits; none of them can overflow, because no counter exceeds the number of attempts. From the tally it
follows what the questions to an outcome say about the addresses that were observed.
-/

namespace NatBehaviour.Probe

/-- The tally of a batch after some attempts. -/
structure Tallied (b : Batch) (done : Nat) (o : Outcome) : Prop where
  attempts : o.attempts = b.attempts
  counted : o.sendFailures.toNat + o.timeouts.toNat + o.decodeFailures.toNat + o.observed.length = done
  matched : o.addressMatches.toNat = o.observed.count b.reference

namespace Tallied

variable {b : Batch} {done : Nat} {o : Outcome}

theorem start (b : Batch) : Tallied b 0 (.start b.attempts) := ⟨rfl, rfl, rfl⟩

theorem toNat_succ {n : UInt32} (h : n.toNat < b.attempts.toNat) : (n + 1).toNat = n.toNat + 1 := by
  have := b.attempts.toNat_lt
  rw [UInt32.toNat_add]
  exact Nat.mod_eq_of_lt (by simp; omega)

theorem countSendFailure (h : Tallied b done o) (hd : done < b.attempts.toNat) :
    Tallied b (done + 1) o.countSendFailure := by
  have hc := h.counted
  refine ⟨h.attempts, ?_, h.matched⟩
  simp only [Outcome.countSendFailure]
  rw [toNat_succ (b := b) (by omega)]
  omega

theorem countTimeout (h : Tallied b done o) (hd : done < b.attempts.toNat) :
    Tallied b (done + 1) o.countTimeout := by
  have hc := h.counted
  refine ⟨h.attempts, ?_, h.matched⟩
  simp only [Outcome.countTimeout]
  rw [toNat_succ (b := b) (by omega)]
  omega

theorem countDecodeFailure (h : Tallied b done o) (hd : done < b.attempts.toNat) :
    Tallied b (done + 1) o.countDecodeFailure := by
  have hc := h.counted
  refine ⟨h.attempts, ?_, h.matched⟩
  simp only [Outcome.countDecodeFailure]
  rw [toNat_succ (b := b) (by omega)]
  omega

theorem countReply (h : Tallied b done o) (hd : done < b.attempts.toNat) (observed : String) :
    Tallied b (done + 1) (o.countReply b.reference observed) := by
  have hc := h.counted
  have hm := h.matched
  refine ⟨h.attempts, ?_, ?_⟩
  · simp only [Outcome.countReply, List.length_append, List.length_singleton]
    omega
  · simp only [Outcome.countReply, List.count_append, List.count_singleton]
    split
    · rename_i he
      have hle := List.count_le_length (a := b.reference) (l := o.observed)
      rw [toNat_succ (b := b) (by omega), hm, he]
      simp
    · rename_i he
      simp [hm, he]

/-- Whatever an attempt reads is counted once. -/
theorem count (h : Tallied b done o) (hd : done < b.attempts.toNat) (r : Reading) :
    Tallied b (done + 1) (b.count o r) := by
  cases r with
  | reply m => exact h.countReply hd _
  | onlyUndecodable => exact h.countDecodeFailure hd
  | nothing => exact h.countTimeout hd

theorem attempt {o' : Outcome} (h : Tallied b done o) (hd : done < b.attempts.toNat)
    (hr : (b.attempt o).Returns o') : Tallied b (done + 1) o' := by
  obtain ⟨sent, -, rest⟩ := hr.bind
  cases sent with
  | false =>
    rw [rest.pure]
    exact h.countSendFailure hd
  | true =>
    obtain ⟨reading, -, rest⟩ := rest.bind
    rw [rest.pure]
    exact h.count hd reading

theorem attemptTimes {o' : Outcome} {n : Nat} (h : Tallied b done o)
    (hd : done + n ≤ b.attempts.toNat) (hr : (b.attemptTimes n o).Returns o') :
    Tallied b (done + n) o' := by
  induction n generalizing done o with
  | zero =>
    rw [hr.pure]
    exact h
  | succ n ih =>
    obtain ⟨o₁, ha, rest⟩ := hr.bind
    have h₁ := h.attempt (by omega) ha
    have h₂ := ih h₁ (by omega) rest
    rwa [Nat.add_assoc, Nat.add_comm 1] at h₂

/-- A batch ends with a tally of all its attempts. -/
theorem run (hr : b.run.Returns o) : Tallied b b.attempts.toNat o := by
  have h := (start b).attemptTimes (by omega) hr
  rwa [Nat.zero_add] at h

end Tallied

/-! ## What an outcome says -/

theorem gotReply_iff {o : Outcome} : o.gotReply = true ↔ o.observed ≠ [] := by
  simp [Outcome.gotReply]

theorem gotReply_eq_false_iff {o : Outcome} : o.gotReply = false ↔ o.observed = [] := by
  simp [Outcome.gotReply]

/-- A batch matched in full just if every attempt observed the reference address and nothing else. -/
theorem Tallied.everyAttemptMatched_iff {b : Batch} {o : Outcome} (h : Tallied b b.attempts.toNat o)
    (hpos : b.attempts ≠ 0) :
    o.everyAttemptMatched = true ↔ o.observed = List.replicate b.attempts.toNat b.reference := by
  have hc := h.counted
  have hle := List.count_le_length (a := b.reference) (l := o.observed)
  have hzero : 0 < b.attempts := UInt32.pos_iff_ne_zero.mpr hpos
  have hall : o.everyAttemptMatched = true ↔ o.addressMatches = b.attempts := by
    simp [Outcome.everyAttemptMatched, h.attempts, hzero]
  rw [hall, ← UInt32.toNat_inj, h.matched, List.eq_replicate_iff]
  constructor
  · intro hcount
    have hlen : o.observed.length = b.attempts.toNat := by omega
    refine ⟨hlen, ?_⟩
    intro a ha
    exact (List.count_eq_length.mp (hcount.trans hlen.symm) a ha).symm
  · rintro ⟨hlen, hsame⟩
    rw [← hlen]
    exact List.count_eq_length.mpr fun a ha => (hsame a ha).symm

end NatBehaviour.Probe
