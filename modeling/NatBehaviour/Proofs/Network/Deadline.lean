import NatBehaviour.Proofs.Network.Clock
import NatBehaviour.Proofs.Network.Sockets

/-!
Runs with a deadline, beside runs without one. Action by action both do the same, until a wait would end after
the deadline: there the one with a deadline is cut off. So it has sent what the other one sends up to then, and
nothing of what that sends later.
-/

namespace NatBehaviour.Network

open NatBehaviour.Net (Endpoint)
open NatBehaviour.Probe (Filter)
open NatBehaviour.Wire (Message)

theorem mem_transmissions_cons {m : Moment} {h : List Moment} {e : Transmission × Bool} :
    e ∈ transmissions (m :: h) ↔ m.transmission? = some e ∨ e ∈ transmissions h := by
  simp [transmissions, List.mem_filterMap]

theorem Moment.time_transmission {m : Moment} {e : Transmission × Bool} (h : m.transmission? = some e) :
    e.1.time = m.world.clock := by
  obtain ⟨w, action, answer⟩ := m
  cases action with
  | send socket destination payload =>
    cases h
    rfl
  | _ => cases h

namespace World

variable {w : World} {x : Endpoint} {f : Filter} {limit stop : Nat}

/-- The hearing of the same arrivals, up to some time and beyond it. A reply is heard in time by both, or only
later and by the second one. -/
inductive CutShort (limit : Nat) : Hearing → Hearing → Prop
  | reply (m : Message) {w : World} (timely : w.clock ≤ limit) : CutShort limit (.reply m w) (.reply m w)
  | silence (seen : Bool) (w : World) {hearing : Hearing}
      (late : ∀ m w', hearing = .reply m w' → limit < w'.clock) : CutShort limit (.silence seen w) hearing

theorem cutShort_hearArrivals (as : List Arrival) (seen : Bool) (w : World) (hclock : w.clock ≤ limit)
    (hstop : limit < stop) :
    CutShort limit (hearArrivals x f (limit + 1) as seen w) (hearArrivals x f stop as seen w) := by
  induction as generalizing seen w with
  | nil => exact .silence _ _ nofun
  | cons a later ih =>
    unfold hearArrivals
    dsimp only
    by_cases htimely : a.due < limit + 1
    · have hclock' : (w.arrive a later).clock ≤ limit := by
        rw [clock_arrive]
        omega
      rw [if_pos htimely, if_pos (by omega)]
      split
      · exact .reply _ (by simpa using hclock')
      · exact ih _ _ hclock'
    -- The first hearing ends here; a reply that the second one still hears comes with or after this arrival.
    · rw [if_neg htimely]
      refine .silence _ _ fun m w' hheard => ?_
      split at hheard
      · have hlate : limit < (w.arrive a later).clock := by
          rw [clock_arrive]
          omega
        split at hheard
        · cases hheard
          simpa using hlate
        · rename_i hdue seen' _
          have hwithin : (hearArrivals x f stop later seen' ((w.arrive a later).setInbox x [])).Within
              (limit + 1) stop :=
            hearArrivals_within _ _ _ hlate (by rw [clock_setInbox, clock_arrive]; omega)
          rw [hheard] at hwithin
          exact hwithin.1
      · cases hheard

theorem cutShort_hear (hclock : w.clock ≤ limit) (hstop : limit < stop) :
    CutShort limit (w.hear x f (limit + 1)) (w.hear x f stop) := by
  unfold hear
  split
  · exact .reply _ hclock
  · exact cutShort_hearArrivals _ _ _ hclock hstop

theorem clock_le_perform (net : Network) (w : World) (action : Action) :
    w.clock ≤ (w.perform net action).2.clock := by
  cases hwaits : action.waits with
  | false => exact Nat.le_of_eq (clock_perform hwaits).symm
  | true =>
    cases action with
    | await socket timeoutMs filter => exact (clock_await rfl).1
    | _ => cases hwaits

end World

namespace Program

variable {net : Network} {w w' : World} {limit : Nat} {action : Action}

/-- What a deadline makes of an action. It is taken as it would be without the deadline if it ends in time,
and else it is broken off. -/
inductive Limited (net : Network) (limit : Nat) (w : World) (action : Action) : Prop
  | inTime (timely : (w.perform net action).2.clock ≤ limit)
      (same : performWithin net limit w action = (some (w.perform net action).1, (w.perform net action).2)) :
      Limited net limit w action
  | brokenOff {w₁ : World} (late : limit < (w.perform net action).2.clock)
      (cut : performWithin net limit w action = (none, w₁)) (later : w.Later w₁) : Limited net limit w action

section Await

variable {socket : SocketAddress} {timeoutMs ms : Nat} {filter : Filter}
  (hpatience : net.patience w.log socket timeoutMs = some ms)

include hpatience

theorem perform_await :
    w.perform net (.await socket timeoutMs filter) = w.awaitUntil socket filter (w.clock + ms) := by
  simp only [World.perform, World.await, hpatience]

/-- A wait that is over by the deadline at the latest. -/
theorem performWithin_await_of_le (hstop : w.clock + ms ≤ limit) :
    performWithin net limit w (.await socket timeoutMs filter) =
      (some (w.perform net (.await socket timeoutMs filter)).1,
        (w.perform net (.await socket timeoutMs filter)).2) := by
  rw [perform_await hpatience]
  simp only [performWithin, hpatience, World.awaitUntil]
  rw [Nat.min_eq_left (by omega)]
  cases w.hear socket filter (w.clock + ms) with
  | reply m w₁ => rfl
  | silence seen w₁ => exact if_pos hstop

/-- A wait that goes on beyond the deadline, unless a reply is heard in time. -/
theorem limited_await_of_lt (hclock : w.clock ≤ limit) (hstop : limit < w.clock + ms) :
    Limited net limit w (.await socket timeoutMs filter) := by
  have hcut := World.cutShort_hear (x := socket) (f := filter) hclock hstop
  have hsound := World.sound_hear w socket filter (limit + 1)
  have hearly : min (w.clock + ms) (limit + 1) = limit + 1 := Nat.min_eq_right (by omega)
  generalize hshort : w.hear socket filter (limit + 1) = short at hcut hsound
  generalize hfull : w.hear socket filter (w.clock + ms) = full at hcut
  cases hcut with
  | reply m timely =>
    refine .inTime ?_ ?_
    · simpa only [perform_await hpatience, World.awaitUntil, hfull] using timely
    · simp only [performWithin, hpatience, perform_await hpatience, World.awaitUntil, hearly, hshort, hfull]
  | silence seen w₁ late =>
    have hcutOff : performWithin net limit w (.await socket timeoutMs filter) = (none, w₁.settle limit) := by
      simp only [performWithin, hpatience, hearly, hshort]
      exact if_neg (by omega)
    refine .brokenOff ?_ hcutOff (hsound.trans (World.later_settle w₁ limit))
    simp only [perform_await hpatience, World.awaitUntil, hfull]
    cases full with
    | reply m w₂ => exact late m w₂ rfl
    | silence seen' w₂ =>
      rw [World.clock_settle]
      omega

end Await

theorem limited (net : Network) (action : Action) (hclock : w.clock ≤ limit) :
    Limited net limit w action := by
  cases action with
  | await socket timeoutMs filter =>
    cases hpatience : net.patience w.log socket timeoutMs with
    | none =>
      have hfailed : w.perform net (.await socket timeoutMs filter) = (.nothing, w) := by
        simp only [World.perform, World.await, hpatience]
      refine .inTime (by rwa [hfailed]) ?_
      simp only [performWithin, hpatience, hfailed]
    | some ms =>
      by_cases hstop : w.clock + ms ≤ limit
      · have hend : (w.perform net (.await socket timeoutMs filter)).2.clock ≤ w.clock + ms := by
          rw [perform_await hpatience]
          exact (World.clock_awaitUntil (Nat.le_add_right _ _) rfl).2.1
        exact .inTime (Nat.le_trans hend hstop) (performWithin_await_of_le hpatience hstop)
      · exact limited_await_of_lt hpatience hclock (Nat.lt_of_not_le hstop)
  | _ => exact .inTime (by rwa [World.clock_perform rfl]) rfl

variable {α : Type} {p : Program α} {h : List Moment} {a : α}

/-- Nothing is sent in a run before it begins. -/
theorem Runs.onward (hr : p.Runs net w h a w') :
    w.clock ≤ w'.clock ∧ ∀ e ∈ transmissions h, w.clock ≤ e.1.time := by
  induction hr with
  | done => exact ⟨Nat.le_refl _, nofun⟩
  | @act action next w w' h a rest ih =>
    have hfirst := World.clock_le_perform net w action
    refine ⟨Nat.le_trans hfirst ih.1, fun e he => ?_⟩
    rcases mem_transmissions_cons.mp he with he | he
    · exact Nat.le_of_eq (Moment.time_transmission he).symm
    · exact Nat.le_trans hfirst (ih.2 e he)

/-- A run that is broken off while it waits: what it has sent by then, and what it does not come to send. -/
inductive BrokenOff (limit : Nat) (w : World) : List Moment → World → Prop
  | intro {front back : List Moment} {m : Moment} {w₁ : World} (silent : m.transmission? = none)
      (later : m.world.Later w₁) (taken : w₁.taken = w.taken)
      (log : w₁.log = (transmissions front).reverse ++ w.log)
      (early : ∀ e ∈ transmissions front, e.1.time ≤ limit)
      (late : ∀ e ∈ transmissions back, limit ≤ e.1.time) : BrokenOff limit w (front ++ m :: back) w₁

/-- One more action in front. -/
theorem BrokenOff.cons {w₁ : World} (hclock : w.clock ≤ limit)
    (hb : BrokenOff limit (w.perform net action).2 h w₁) :
    BrokenOff limit w (⟨w, action, (w.perform net action).1⟩ :: h) w₁ := by
  obtain ⟨silent, later, taken, log, early, late⟩ := hb
  rename_i front back m
  have htaken := taken.trans (World.perform_keeps w action).1
  rw [← List.cons_append]
  refine .intro silent later htaken ?_ ?_ late
  · rw [log, World.log_perform, transmissions, transmissions, List.filterMap_cons]
    cases Moment.transmission? ⟨w, action, (w.perform net action).1⟩ with
    | none => rfl
    | some e => simp
  · intro e he
    rcases mem_transmissions_cons.mp he with he | he
    · exact Nat.le_trans (Nat.le_of_eq (Moment.time_transmission he)) hclock
    · exact early e he

/-- Only waiting takes time, so only a wait is broken off. -/
theorem silent_of_clock_lt (hclock : w.clock < (w.perform net action).2.clock) :
    Moment.transmission? ⟨w, action, (w.perform net action).1⟩ = none := by
  cases action with
  | send socket destination payload =>
    rw [World.clock_perform rfl] at hclock
    exact absurd hclock (Nat.lt_irrefl _)
  | _ => rfl

/-- A program with a deadline has the same result as without, in the same world, if it ends in time. If not,
it is broken off. -/
theorem Runs.runUntil (hr : p.Runs net w h a w') (hclock : w.clock ≤ limit) :
    (w'.clock ≤ limit ∧ p.runUntil net limit w = (some a, w')) ∨
    limit < w'.clock ∧ ∃ w₁, p.runUntil net limit w = (none, w₁) ∧ BrokenOff limit w h w₁ := by
  induction hr with
  | done => exact .inl ⟨hclock, rfl⟩
  | @act action next w w' h a rest ih =>
    cases limited net action hclock with
    | inTime timely same =>
      simp only [Program.runUntil, same]
      rcases ih timely with hdone | ⟨hend, w₁, hrest, hbroken⟩
      · exact .inl hdone
      · exact .inr ⟨hend, w₁, hrest, hbroken.cons hclock⟩
    | @brokenOff w₁ late cut later =>
      simp only [Program.runUntil, cut]
      obtain ⟨honward, hsent⟩ := rest.onward
      refine .inr ⟨Nat.lt_of_lt_of_le late honward, w₁, rfl, ?_⟩
      -- What the run without the deadline sends from here on, it sends after this wait.
      have hsilent := silent_of_clock_lt (Nat.lt_of_le_of_lt hclock late)
      rw [← List.nil_append (_ :: h)]
      refine .intro hsilent later later.taken later.log nofun fun e he => ?_
      exact Nat.le_of_lt (Nat.lt_of_lt_of_le late (hsent e he))

/-! ## Giving up -/

/-- The sockets that were there before are left. -/
theorem addresses_abandon {before after : World} {extra : List SocketAddress}
    (hsame : after.addresses = before.addresses ++ extra) (hextra : ∀ x ∈ extra, x ∉ before.addresses) :
    (abandon before after).addresses = before.addresses := by
  have hkept : (abandon before after).addresses =
      after.addresses.filter (· ∈ before.addresses) := by
    simp only [World.addresses, abandon]
    rw [List.filter_map]
    congr 1
    refine List.filter_congr fun s _ => ?_
    rw [Bool.eq_iff_iff]
    simp
  rw [hkept, hsame, List.filter_append, List.filter_eq_self.mpr (by simp),
    List.filter_eq_nil_iff.mpr (by simpa using hextra), List.append_nil]

end Program

end NatBehaviour.Network
