import NatBehaviour.Proofs.Probe.Tally

/-!
The account of a batch. A batch is a list of attempts: each sends once, and reads once if that worked. The
outcome counts every attempt of the list in the one place where it belongs, with numbers that are exact,
and that decides what the questions to an outcome mean. All of this holds for any answers to the actions of
the batch, be they from a network, from a receive that fails, or from nowhere.
-/

namespace NatBehaviour.Probe

open NatBehaviour.Network (Program Turn)

/-- What an attempt comes to. -/
inductive Attempt
  | unsent
  | read (reading : Reading)
  deriving DecidableEq

/-- The address that an attempt observes, if it gets a usable reply. -/
def Attempt.observed? : Attempt → Option String
  | .read (.reply m) => some (m.observed.getD "")
  | _ => none

namespace Batch

variable {b : Batch} {o o' : Outcome} {ts : List Turn}

/-- Counts an attempt. -/
def enter (b : Batch) (o : Outcome) : Attempt → Outcome
  | .unsent => o.countSendFailure
  | .read r => b.count o r

/-- What a batch does in an attempt. -/
def turns (b : Batch) : Attempt → List Turn
  | .unsent => [⟨.send b.socket b.destination b.message.encode, false⟩]
  | .read r =>
    [⟨.send b.socket b.destination b.message.encode, true⟩, ⟨.await b.socket b.timeoutMs b.filter, r⟩]

/-! ## Attempts -/

/-- An attempt can come to anything. -/
theorem attempt_answered (b : Batch) (o : Outcome) (a : Attempt) :
    (b.attempt o).Answered (b.turns a) (b.enter o a) := by
  cases a with
  | unsent =>
    exact (Program.Answered.single (.send b.socket b.destination b.message.encode) false).append
      (.done o.countSendFailure)
  | read r =>
    have hread := (Program.Answered.single (.await b.socket b.timeoutMs b.filter) r).append
      (f := fun r => pure (b.count o r)) (.done (b.count o r))
    exact (Program.Answered.single (.send b.socket b.destination b.message.encode) true).append hread

theorem attempt_answered_iff :
    (b.attempt o).Answered ts o' ↔ ∃ a, ts = b.turns a ∧ o' = b.enter o a := by
  constructor
  · intro h
    obtain ⟨ts₁, ts₂, sent, rfl, hsend, rest⟩ := h.bind
    obtain rfl := hsend.perform
    cases sent with
    | false =>
      obtain ⟨rfl, rfl⟩ := rest.pure
      exact ⟨.unsent, rfl, rfl⟩
    | true =>
      obtain ⟨ts₃, ts₄, r, rfl, hawait, hdone⟩ := rest.bind
      obtain rfl := hawait.perform
      obtain ⟨rfl, rfl⟩ := hdone.pure
      exact ⟨.read r, rfl, rfl⟩
  · intro ⟨a, hts, ho⟩
    rw [hts, ho]
    exact b.attempt_answered o a

/-- A batch does what its attempts do, and can come to any attempts at all. -/
theorem attemptTimes_answered_iff {n : Nat} :
    (b.attemptTimes n o).Answered ts o' ↔ ∃ attempts : List Attempt, attempts.length = n ∧
      ts = attempts.flatMap b.turns ∧ o' = attempts.foldl b.enter o := by
  induction n generalizing o ts with
  | zero =>
    constructor
    · intro h
      obtain ⟨rfl, rfl⟩ := h.pure
      exact ⟨[], rfl, rfl, rfl⟩
    · intro ⟨attempts, hlength, hts, ho⟩
      obtain rfl := List.length_eq_zero_iff.mp hlength
      subst hts ho
      exact .done _
  | succ n ih =>
    constructor
    · intro h
      obtain ⟨ts₁, ts₂, o₁, rfl, hfirst, hrest⟩ := h.bind
      obtain ⟨a, rfl, rfl⟩ := attempt_answered_iff.mp hfirst
      obtain ⟨attempts, hlength, rfl, rfl⟩ := ih.mp hrest
      exact ⟨a :: attempts, by simp [hlength], by simp, rfl⟩
    · intro ⟨attempts, hlength, hts, ho⟩
      cases attempts with
      | nil => simp at hlength
      | cons a rest =>
        have hfirst := b.attempt_answered o a
        have hrest := ih.mpr ⟨rest, by simpa using hlength, rfl, ho⟩
        rw [hts, List.flatMap_cons]
        exact hfirst.append hrest

/-! ## Counting -/

theorem sendFailures_enter (b : Batch) (o : Outcome) (a : Attempt) :
    (b.enter o a).sendFailures = if a = .unsent then o.sendFailures + 1 else o.sendFailures := by
  cases a with
  | unsent => rfl
  | read r => cases r <;> rfl

theorem timeouts_enter (b : Batch) (o : Outcome) (a : Attempt) :
    (b.enter o a).timeouts = if a = .read .nothing then o.timeouts + 1 else o.timeouts := by
  cases a with
  | unsent => rfl
  | read r => cases r <;> rfl

theorem decodeFailures_enter (b : Batch) (o : Outcome) (a : Attempt) :
    (b.enter o a).decodeFailures =
      if a = .read .onlyUndecodable then o.decodeFailures + 1 else o.decodeFailures := by
  cases a with
  | unsent => rfl
  | read r => cases r <;> rfl

theorem observed_enter (b : Batch) (o : Outcome) (a : Attempt) :
    (b.enter o a).observed = o.observed ++ a.observed?.toList := by
  cases a with
  | unsent => exact (List.append_nil _).symm
  | read r =>
    cases r with
    | reply m => rfl
    | _ => exact (List.append_nil _).symm

end Batch

theorem Tallied.enter {b : Batch} {done : Nat} {o : Outcome} (h : Tallied b done o)
    (hd : done < b.attempts.toNat) (a : Attempt) : Tallied b (done + 1) (b.enter o a) := by
  cases a with
  | unsent => exact h.countSendFailure hd
  | read r => exact h.count hd r

/-- An outcome that counts some attempts, each of them in one place. -/
structure Accounts (b : Batch) (done : List Attempt) (o : Outcome) : Prop
    extends Tallied b done.length o where
  sendFailures : o.sendFailures.toNat = done.count .unsent
  timeouts : o.timeouts.toNat = done.count (.read .nothing)
  decodeFailures : o.decodeFailures.toNat = done.count (.read .onlyUndecodable)
  observed : o.observed = done.filterMap Attempt.observed?

namespace Accounts

variable {b : Batch} {done : List Attempt} {o : Outcome}

theorem start (b : Batch) : Accounts b [] (.start b.attempts) := ⟨.start b, rfl, rfl, rfl, rfl⟩

/-- A count of one kind of attempts goes up with each of that kind; there is room for it, since not all
attempts are done. -/
theorem count_enter {n : UInt32} {kind : Attempt} (hn : n.toNat = done.count kind)
    (hd : done.length < b.attempts.toNat) (a : Attempt) :
    (if a = kind then n + 1 else n).toNat = (done ++ [a]).count kind := by
  rw [List.count_append, List.count_singleton, ← hn]
  by_cases ha : a = kind
  · have hle : done.count kind ≤ done.length := List.count_le_length
    rw [if_pos ha, Tallied.toNat_succ (b := b) (by omega)]
    simp [ha]
  · rw [if_neg ha]
    simp [ha]

/-- One more attempt is counted exactly. -/
theorem enter (h : Accounts b done o) (hd : done.length < b.attempts.toNat) (a : Attempt) :
    Accounts b (done ++ [a]) (b.enter o a) where
  toTallied := by
    rw [List.length_append, List.length_singleton]
    exact h.toTallied.enter hd a
  sendFailures := by
    rw [Batch.sendFailures_enter]
    exact count_enter h.sendFailures hd a
  timeouts := by
    rw [Batch.timeouts_enter]
    exact count_enter h.timeouts hd a
  decodeFailures := by
    rw [Batch.decodeFailures_enter]
    exact count_enter h.decodeFailures hd a
  observed := by
    rw [Batch.observed_enter, h.observed, List.filterMap_append]
    cases ha : a.observed? <;> simp [ha]

theorem foldl (h : Accounts b done o) {attempts : List Attempt}
    (hd : done.length + attempts.length ≤ b.attempts.toNat) :
    Accounts b (done ++ attempts) (attempts.foldl b.enter o) := by
  induction attempts generalizing done o with
  | nil => simpa using h
  | cons a rest ih =>
    simp only [List.length_cons] at hd
    have hrest := ih (h.enter (by omega) a) (by simp; omega)
    rwa [List.append_assoc] at hrest

/-- The outcome of as many attempts as there are to be counts all of them. -/
theorem ofAttempts {attempts : List Attempt} (hlength : attempts.length = b.attempts.toNat) :
    Accounts b attempts (attempts.foldl b.enter (.start b.attempts)) :=
  (start b).foldl (by simp [hlength])

end Accounts

/-! ## What an outcome says -/

theorem Tallied.replies {b : Batch} {o : Outcome} (h : Tallied b b.attempts.toNat o) :
    o.replies.toNat = o.observed.length := by
  have hcounted := h.counted
  have hlt := b.attempts.toNat_lt
  simp [Outcome.replies]
  omega

/-- A batch matched in full just if nothing was lost or garbled and everything observed is the reference
address. -/
theorem Tallied.everyAttemptMatched_iff_noLoss {b : Batch} {o : Outcome}
    (h : Tallied b b.attempts.toNat o) :
    o.everyAttemptMatched = true ↔ 0 < o.attempts ∧ o.sendFailures = 0 ∧ o.timeouts = 0 ∧
      o.decodeFailures = 0 ∧ ∀ a ∈ o.observed, a = b.reference := by
  have hcounted := h.counted
  by_cases hpos : b.attempts = 0
  · simp [Outcome.everyAttemptMatched, h.attempts, hpos]
  rw [h.everyAttemptMatched_iff hpos, List.eq_replicate_iff]
  have hattempts : 0 < o.attempts := by rwa [h.attempts, UInt32.pos_iff_ne_zero]
  have hzero {n : UInt32} : n = 0 ↔ n.toNat = 0 := by rw [← UInt32.toNat_inj]; rfl
  simp only [hzero, hattempts, true_and]
  constructor
  · intro h
    obtain ⟨hlength, hsame⟩ := h
    exact ⟨by omega, by omega, by omega, hsame⟩
  · intro h
    obtain ⟨hsend, htime, hdecode, hsame⟩ := h
    exact ⟨by omega, hsame⟩

theorem Tallied.gotReply_of_allSendsFailed {b : Batch} {o : Outcome}
    (h : Tallied b b.attempts.toNat o) (hall : o.allSendsFailed = true) : o.gotReply = false := by
  have hcounted := h.counted
  simp only [Outcome.allSendsFailed, Bool.and_eq_true, decide_eq_true_eq] at hall
  rw [gotReply_eq_false_iff, ← List.length_eq_zero_iff]
  rw [hall.2, h.attempts] at hcounted
  omega

/-- Whatever the answers, a batch makes as many attempts as it is to make and counts each of them once: as a
send that failed, as a wait that saw nothing, as one that saw nothing that decodes, or as an observed
address. The counts are exact, as no counter can overflow. So a batch matched in full just if every attempt
was answered with the reference address, and one of which all sends failed got no reply. -/
theorem Batch.run_accounts {b : Batch} {ts : List Turn} {o : Outcome} (h : b.run.Answered ts o) :
    ∃ attempts : List Attempt, attempts.length = b.attempts.toNat ∧ ts = attempts.flatMap b.turns ∧
      (o.sendFailures.toNat = attempts.count .unsent ∧
        o.timeouts.toNat = attempts.count (.read .nothing) ∧
        o.decodeFailures.toNat = attempts.count (.read .onlyUndecodable) ∧
        o.observed = attempts.filterMap Attempt.observed?) ∧
      o.attempts = b.attempts ∧
      o.sendFailures.toNat + o.timeouts.toNat + o.decodeFailures.toNat + o.observed.length =
        b.attempts.toNat ∧
      o.addressMatches.toNat = o.observed.count b.reference ∧
      o.replies.toNat = o.observed.length ∧
      (o.everyAttemptMatched = true ↔ 0 < o.attempts ∧ o.sendFailures = 0 ∧ o.timeouts = 0 ∧
        o.decodeFailures = 0 ∧ ∀ a ∈ o.observed, a = b.reference) ∧
      (o.allSendsFailed = true → o.gotReply = false) := by
  obtain ⟨attempts, hlength, rfl, rfl⟩ := attemptTimes_answered_iff.mp h
  have haccounts := Accounts.ofAttempts hlength
  have htallied := hlength ▸ haccounts.toTallied
  exact ⟨attempts, hlength, rfl,
    ⟨haccounts.sendFailures, haccounts.timeouts, haccounts.decodeFailures, haccounts.observed⟩,
    htallied.attempts, htallied.counted, htallied.matched, htallied.replies,
    htallied.everyAttemptMatched_iff_noLoss, htallied.gotReply_of_allSendsFailed⟩

/-- Four pings to a primary listener on the loopback interface. -/
def fourPings : Batch where
  socket := .v4 .loopback 40000
  destination := .v4 .loopback 3478
  message := .request .ping
  attempts := 4
  timeoutMs := 100
  filter := .any
  reference := "127.0.0.1:40000"

/-- One ping cannot be sent, one is lost, one is answered with garbage and one with the own address. -/
theorem Batch.run_accounts_mixed :
    ∃ ts, fourPings.run.Answered ts ⟨4, 1, 1, 1, 1, ["127.0.0.1:40000"]⟩ ∧
      ∃ attempts : List Attempt, attempts.length = 4 ∧ ts = attempts.flatMap fourPings.turns ∧
        attempts.count .unsent = 1 ∧ attempts.count (.read .nothing) = 1 ∧
        attempts.count (.read .onlyUndecodable) = 1 ∧
        attempts.filterMap Attempt.observed? = ["127.0.0.1:40000"] := by
  have h : fourPings.run.Answered _ ⟨4, 1, 1, 1, 1, ["127.0.0.1:40000"]⟩ :=
    Batch.attemptTimes_answered_iff.mpr ⟨[.unsent, .read .nothing, .read .onlyUndecodable,
      .read (.reply ⟨.ping, some "127.0.0.1:40000"⟩)], rfl, rfl, rfl⟩
  obtain ⟨attempts, hlength, hts, ⟨hunsent, hnothing, hgarbage, hobserved⟩, -⟩ := Batch.run_accounts h
  exact ⟨_, h, attempts, hlength, hts, hunsent.symm, hnothing.symm, hgarbage.symm, hobserved.symm⟩

end NatBehaviour.Probe
