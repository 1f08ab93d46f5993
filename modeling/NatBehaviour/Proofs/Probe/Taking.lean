import NatBehaviour.Proofs.Network.Queue
import NatBehaviour.Proofs.Probe.Accounting
import NatBehaviour.Proofs.Probe.Attempts

/-!
What a batch takes off its socket. Its attempts read from one queue, each from where the one before it has left
off, so that no usable datagram is passed over, taken twice or taken out of order. What an attempt counts as is
decided by what it has taken.
-/

namespace NatBehaviour.Probe

open NatBehaviour.Network (Moment World Queues arrived taken)

/-- An attempt and its actions. -/
structure Round where
  attempt : Attempt
  moments : List Moment

namespace Round

variable {b : Batch} {net : Network} {r : Round} {rounds : List Round}

/-- An attempt counts as what it takes. It takes nothing if it cannot send, and never more than one usable
datagram. -/
structure Fair (b : Batch) (net : Network) (r : Round) : Prop where
  turns : r.moments.map Moment.turn = b.turns r.attempt
  unsent : r.attempt = .unsent → taken net b.socket r.moments = []
  read : ∀ reading, r.attempt = .read reading → reading = b.filter.comesTo (taken net b.socket r.moments)
  usable : (b.filter.usable (taken net b.socket r.moments)).length ≤ 1

/-- The address that an attempt observes is that of the usable datagram that it takes. -/
theorem Fair.observed (h : r.Fair b net) :
    r.attempt.observed?.toList =
      (b.filter.usable (taken net b.socket r.moments)).map (·.observed.getD "") := by
  cases hattempt : r.attempt with
  | unsent =>
    rw [h.unsent hattempt]
    rfl
  | read reading =>
    have husable := h.usable
    rw [h.read reading hattempt, Filter.comesTo]
    cases hmessages : b.filter.usable (taken net b.socket r.moments) with
    | nil => cases (taken net b.socket r.moments).any b.filter.isGarbled <;> rfl
    | cons m later =>
      rw [hmessages, List.length_cons] at husable
      obtain rfl := List.length_eq_zero_iff.mp (by omega : later.length = 0)
      rfl

theorem observed_of_fair (h : ∀ r ∈ rounds, r.Fair b net) :
    (rounds.map (·.attempt)).filterMap Attempt.observed? =
      (b.filter.usable (taken net b.socket (rounds.flatMap (·.moments)))).map (·.observed.getD "") := by
  induction rounds with
  | nil => rfl
  | cons r rounds ih =>
    have hrest := ih fun s hs => h s (List.mem_cons_of_mem r hs)
    have hfirst := (h r List.mem_cons_self).observed
    rw [List.flatMap_cons, Network.taken_append, Filter.usable_append, List.map_append, ← hfirst, ← hrest,
      List.map_cons, List.filterMap_cons]
    cases r.attempt.observed? <;> rfl

end Round

namespace Batch

variable {b : Batch} {o o' : Outcome} {net : Network} {w w' : World} {ms : List Moment}

/-- One attempt reads the queue from where it stands. -/
theorem attempt_takes (hw : w.Punctual) (hx : b.socket ∈ w.addresses)
    (hr : (b.attempt o).Runs net w ms o' w') :
    ∃ attempt, Round.Fair b net ⟨attempt, ms⟩ ∧ Queues net b.socket w ms w' ∧ o' = b.enter o attempt := by
  obtain ⟨hsend, rfl, rfl⟩ | ⟨w₁, r, hsend, hawait, rfl, rfl⟩ := attempt_runs hr
  · obtain ⟨hqueue, htaken⟩ := Queues.send hw hx hsend
    exact ⟨.unsent, ⟨rfl, fun _ => htaken, nofun, by rw [htaken]; exact Nat.zero_le 1⟩, hqueue, rfl⟩
  · obtain ⟨hsent, hnothing⟩ := Queues.send hw hx hsend
    obtain ⟨hqueue, hreading, husable⟩ := Queues.await net hsent.punctual (hsent.addresses ▸ hx) hawait
    have htaken := Network.taken_append net b.socket [⟨w, .send b.socket b.destination b.message.encode, true⟩]
      [⟨w₁, .await b.socket b.timeoutMs b.filter, r⟩]
    rw [hnothing, List.nil_append] at htaken
    rw [← htaken] at hreading husable
    refine ⟨.read r, ⟨rfl, nofun, ?_, husable⟩, hsent.append hqueue, rfl⟩
    intro reading heq
    cases heq
    exact hreading

/-- The attempts of a batch read one queue, one after the other. -/
theorem attemptTimes_takes {n : Nat} (hw : w.Punctual) (hx : b.socket ∈ w.addresses)
    (hr : (b.attemptTimes n o).Runs net w ms o' w') :
    ∃ rounds : List Round, rounds.length = n ∧ ms = rounds.flatMap (·.moments) ∧
      (∀ r ∈ rounds, r.Fair b net) ∧ Queues net b.socket w ms w' ∧
      o' = (rounds.map (·.attempt)).foldl b.enter o := by
  induction n generalizing o w ms with
  | zero =>
    obtain ⟨rfl, rfl, rfl⟩ := attemptTimes_runs_zero hr
    exact ⟨[], rfl, rfl, fun _ h => absurd h List.not_mem_nil, .refl net b.socket hw, rfl⟩
  | succ n ih =>
    obtain ⟨ms₁, ms₂, o₁, w₁, rfl, hfirst, hrest⟩ := attemptTimes_runs_succ hr
    obtain ⟨attempt, hfair, hqueue, rfl⟩ := attempt_takes hw hx hfirst
    obtain ⟨rounds, rfl, rfl, hfairs, hqueues, rfl⟩ := ih hqueue.punctual (hqueue.addresses ▸ hx) hrest
    refine ⟨⟨attempt, ms₁⟩ :: rounds, rfl, rfl, ?_, hqueue.append hqueues, rfl⟩
    intro r hr
    rcases List.mem_cons.mp hr with rfl | hr
    · exact hfair
    · exact hfairs r hr

/-- In a world where nothing is overdue, as in any that a program gets to, a batch takes a front of what is
queued at its socket and arrives there, in the order of arrival, and leaves the rest as it is. It observes
just the usable datagrams among those, each of them once and in their order. An attempt takes nothing if it
cannot send; otherwise it takes one usable datagram at most, and counts as what it has taken. If the last
attempt waits in vain, without an error, and there was no reply before, nothing usable was queued or arrived
before the end of the wait. -/
theorem run_takes (hw : w.Punctual) (hx : b.socket ∈ w.addresses) (hr : b.run.Runs net w ms o w') :
    (w.inbox b.socket ++ (arrived net b.socket ms).map (·.datagram) =
        taken net b.socket ms ++ w'.inbox b.socket ∧
      (arrived net b.socket ms).Pairwise (·.due ≤ ·.due) ∧
      w'.Punctual) ∧
    o.observed = (b.filter.usable (taken net b.socket ms)).map (·.observed.getD "") ∧
    (∃ rounds : List Round, rounds.length = b.attempts.toNat ∧ ms = rounds.flatMap (·.moments) ∧
      (∀ r ∈ rounds, r.Fair b net) ∧
      o.sendFailures.toNat = (rounds.map (·.attempt)).count .unsent ∧
      o.timeouts.toNat = (rounds.map (·.attempt)).count (.read .nothing) ∧
      o.decodeFailures.toNat = (rounds.map (·.attempt)).count (.read .onlyUndecodable)) ∧
    ∀ w₁ reading, ms.getLast? = some ⟨w₁, .await b.socket b.timeoutMs b.filter, reading⟩ →
      net.failure w₁.log b.socket = none → o.observed = [] →
      w₁.clock + b.timeoutMs ≤ w'.clock ∧ b.filter.usable (w.inbox b.socket) = [] ∧
      ∀ a ∈ arrived net b.socket ms, a.due < w₁.clock + b.timeoutMs → b.filter.reply? a.datagram = none := by
  obtain ⟨rounds, hlength, hms, hfair, hqueue, rfl⟩ := attemptTimes_takes hw hx hr
  have haccounts : Accounts b (rounds.map (·.attempt)) _ := Accounts.ofAttempts (by rwa [List.length_map])
  have hobserved := haccounts.observed.trans (Round.observed_of_fair hfair)
  rw [← hms] at hobserved
  refine ⟨⟨hqueue.inbox, hqueue.sorted, hqueue.punctual⟩, hobserved, ⟨rounds, hlength, hms, hfair,
    haccounts.sendFailures, haccounts.timeouts, haccounts.decodeFailures⟩, ?_⟩
  intro w₁ reading hlast hnet hnone
  have hvain : b.filter.usable (taken net b.socket ms) = [] := by rwa [hobserved, List.map_eq_nil_iff] at hnone
  obtain ⟨hend, early, late, harrived, hleft, hlate⟩ :=
    hqueue.late w₁ b.timeoutMs b.filter reading hlast hnet hvain
  have hall := hqueue.inbox
  rw [harrived, hleft, List.map_append, ← List.append_assoc] at hall
  rw [← List.append_cancel_right hall, Filter.usable_append, List.append_eq_nil_iff] at hvain
  refine ⟨hend, hvain.1, fun a ha hdue => ?_⟩
  rcases List.mem_append.mp (harrived ▸ ha) with ha | ha
  · exact Filter.usable_eq_nil_iff.mp hvain.2 a.datagram (List.mem_map_of_mem ha)
  · exact absurd hdue (Nat.not_lt_of_le (hlate a ha))

/-- The first of four pings cannot be sent. The second one brings two replies at the same time, behind one that
a stranger sends and one that does not decode; the third brings nothing, and the fourth again one that does not
decode. -/
def patchyNetwork : Network where
  resolve _ _ := []
  bind _ _ := .error .addressInUse
  route _ := none
  carry earlier t :=
    let reply (port : UInt16) : Network.Response :=
      ⟨20, t.source, t.destination, (Wire.Message.reply .ping (.v4 .loopback port)).encode⟩
    match earlier.length with
    | 0 => none
    | 1 => some [⟨0, t.source, .v4 .loopback 9, (reply 7).datagram.payload⟩, ⟨10, t.source, t.destination, [0]⟩,
        reply 40000, reply 40001]
    | 2 => some []
    | _ => some [⟨5, t.source, t.destination, [0]⟩]
  failure _ _ := none

def patchyPings : Batch := { fourPings with filter := .only (.v4 .loopback 3478) }

def patchyWorld : World :=
  { World.start [] with sockets := [⟨patchyPings.socket, [⟨patchyPings.destination, [0]⟩]⟩] }

/-- One ping is not sent, two read the replies in their order, and one counts as undecodable. -/
theorem run_takes_patchy : ∃ ms w',
    patchyPings.run.Runs patchyNetwork patchyWorld ms
      ⟨4, 1, 0, 1, 1, ["127.0.0.1:40000", "127.0.0.1:40001"]⟩ w' ∧
    (patchyPings.filter.usable (taken patchyNetwork patchyPings.socket ms)).map (·.observed.getD "") =
      ["127.0.0.1:40000", "127.0.0.1:40001"] ∧
    ∃ rounds : List Round, rounds.length = 4 ∧ ms = rounds.flatMap (·.moments) ∧
      (∀ r ∈ rounds, r.Fair patchyPings patchyNetwork) ∧ (rounds.map (·.attempt)).count .unsent = 1 ∧
      (rounds.map (·.attempt)).count (.read .onlyUndecodable) = 1 := by
  have hrun : (patchyPings.run.run patchyNetwork patchyWorld).1 =
      ⟨4, 1, 0, 1, 1, ["127.0.0.1:40000", "127.0.0.1:40001"]⟩ := by decide +kernel
  have hr : patchyPings.run.Runs patchyNetwork patchyWorld _ _ _ := patchyPings.run.runs_history patchyWorld
  rw [hrun] at hr
  have hpunctual : patchyWorld.Punctual := ⟨.nil, (World.punctual_start []).pending⟩
  obtain ⟨-, hobserved, ⟨rounds, hlength, hms, hfair, hunsent, -, hgarbled⟩, -⟩ :=
    run_takes hpunctual (by decide) hr
  exact ⟨_, _, hr, hobserved.symm, rounds, hlength, hms, hfair, hunsent.symm, hgarbled.symm⟩

end Batch

end NatBehaviour.Probe
