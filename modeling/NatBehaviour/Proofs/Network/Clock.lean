import NatBehaviour.Proofs.Network.Delivery
import NatBehaviour.Proofs.Network.Runs

/-!
The clock of a world. It moves only while a program waits, and a wait never moves it past its deadline. What
arrives meanwhile changes nothing about that, however much it is: only a usable reply ends a wait before
its deadline.
-/

namespace NatBehaviour.Network

open NatBehaviour.Net (Endpoint)
open NatBehaviour.Probe (Datagram Filter Reading)

namespace World

variable {net : Network} {w w' : World} {x : Endpoint} {f : Filter} {stop : Nat}

@[simp] theorem clock_deliver (w : World) (y : Endpoint) (d : Datagram) : (w.deliver y d).clock = w.clock := rfl

@[simp] theorem clock_setInbox (w : World) (y : Endpoint) (ds : List Datagram) :
    (w.setInbox y ds).clock = w.clock := rfl

@[simp] theorem clock_flush (w : World) (as : List Arrival) : (w.flush as).clock = w.clock := by
  induction as generalizing w with
  | nil => rfl
  | cons a later ih =>
    unfold flush
    split
    · exact ih _
    · rfl

@[simp] theorem clock_settle (w : World) (time : Nat) : (w.settle time).clock = max w.clock time :=
  clock_flush _ _

@[simp] theorem clock_arrive (w : World) (a : Arrival) (later : List Arrival) :
    (w.arrive a later).clock = max w.clock a.due := rfl

/-! ## Waiting -/

/-- A hearing ends no earlier than it began, and no later than it should. -/
def Hearing.Within (start stop : Nat) : Hearing → Prop
  | .reply _ w | .silence _ w => start ≤ w.clock ∧ w.clock ≤ stop

/-- Arrivals are heard one by one, each of them before the deadline. -/
theorem hearArrivals_within {start : Nat} (as : List Arrival) (seen : Bool) (w : World)
    (hstart : start ≤ w.clock) (hstop : w.clock ≤ stop) :
    (hearArrivals x f stop as seen w).Within start stop := by
  induction as generalizing seen w with
  | nil => exact ⟨hstart, hstop⟩
  | cons a later ih =>
    unfold hearArrivals
    split
    · rename_i hdue
      have hstart' : start ≤ (w.arrive a later).clock := by
        rw [clock_arrive]
        omega
      have hstop' : (w.arrive a later).clock ≤ stop := by
        rw [clock_arrive]
        omega
      dsimp only
      split
      · exact ⟨by simpa using hstart', by simpa using hstop'⟩
      · exact ih _ _ hstart' hstop'
    · exact ⟨hstart, hstop⟩

theorem hear_within (hstop : w.clock ≤ stop) : (w.hear x f stop).Within w.clock stop := by
  unfold hear
  split
  · exact ⟨Nat.le_refl _, hstop⟩
  · exact hearArrivals_within _ _ _ (Nat.le_refl w.clock) hstop

/-- A wait ends by its deadline, and before that only with a usable reply that was held for the socket. -/
theorem clock_awaitUntil {r : Reading} (hstop : w.clock ≤ stop) (h : w.awaitUntil x f stop = (r, w')) :
    w.clock ≤ w'.clock ∧ w'.clock ≤ stop ∧
      (w'.clock < stop → ∃ m d, r = .reply m ∧ w.Holds x d ∧ f.judge d = .usable m) := by
  have hwithin : (w.hear x f stop).Within w.clock stop := hear_within hstop
  have hsound := (awaitUntil_sound h).2
  unfold awaitUntil at h
  split at h
  · rename_i m w₁ heard
    rw [heard] at hwithin
    cases h
    obtain ⟨d, hd, hj⟩ := hsound m rfl
    exact ⟨hwithin.1, hwithin.2, fun _ => ⟨m, d, rfl, hd, hj⟩⟩
  · rename_i seen w₁ heard
    rw [heard] at hwithin
    cases h
    obtain ⟨hfirst, hlast⟩ := hwithin
    have hend : (w₁.settle stop).clock = stop := by
      rw [clock_settle]
      omega
    exact ⟨by omega, by omega, fun hearly => by omega⟩

/-- A wait lasts no longer than it should, and without an error no less, unless there is a usable reply. -/
theorem clock_await {timeoutMs : Nat} {r : Reading} (h : w.await net x timeoutMs f = (r, w')) :
    w.clock ≤ w'.clock ∧ w'.clock ≤ w.clock + timeoutMs ∧
      (net.failure w.log x = none → w'.clock < w.clock + timeoutMs →
        ∃ m d, r = .reply m ∧ w.Holds x d ∧ f.judge d = .usable m) := by
  have hbounds : w.clock ≤ w'.clock ∧ w'.clock ≤ w.clock + timeoutMs := by
    rcases await_cases h with ⟨-, rfl⟩ | ⟨ms, hms, h⟩
    · exact ⟨Nat.le_refl _, Nat.le_add_right _ _⟩
    · obtain ⟨hfirst, hlast, -⟩ := clock_awaitUntil (Nat.le_add_right _ _) h
      exact ⟨hfirst, Nat.le_trans hlast (Nat.add_le_add_left hms _)⟩
  refine ⟨hbounds.1, hbounds.2, fun hnet hearly => ?_⟩
  rw [await_of_no_failure hnet] at h
  exact (clock_awaitUntil (Nat.le_add_right _ _) h).2.2 hearly

/-! ## Everything else -/

theorem clock_send {destination : Endpoint} {payload : Json.Bytes} {sent : Bool}
    (h : w.send net x destination payload = (sent, w')) : w'.clock = w.clock := by
  cases sent with
  | false => rw [(send_false h).2]
  | true =>
    obtain ⟨rs, -, hresponded⟩ := send_true h
    exact hresponded.clock

/-- Only waiting takes time. -/
theorem clock_perform {action : Action} (hwaits : action.waits = false) :
    (w.perform net action).2.clock = w.clock := by
  cases action with
  | bind address =>
    simp only [perform, bindSocket]
    split <;> rfl
  | send socket destination payload => exact clock_send rfl
  | await socket timeoutMs filter => cases hwaits
  | _ => rfl

end World

end NatBehaviour.Network
