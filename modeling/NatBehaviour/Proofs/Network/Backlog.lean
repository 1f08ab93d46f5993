import NatBehaviour.Proofs.Network.Delivery

/-!
How much a client can have read by some time. A socket's backlog counts what has arrived for it and what
arrives by that time. Only a send adds to it, one for each datagram that it brings about in time; waiting
adds nothing, and each reply that is read takes one away. So no more is read than was brought about.
-/

namespace NatBehaviour.Network

open NatBehaviour.Json (Bytes)
open NatBehaviour.Net (Endpoint)
open NatBehaviour.Probe (Datagram Filter Reading)
open NatBehaviour.Wire (Message)

namespace World

variable {w w' w'' : World} {x : Endpoint} {time : Nat}

/-- What a socket has in its inbox and what arrives there by some time. -/
def backlog (w : World) (x : Endpoint) (time : Nat) : Nat :=
  (w.inbox x).length + w.arrivals.countP fun a => a.destination = x ∧ a.due ≤ time

/-- No socket has anything to read if nothing has arrived and nothing is on its way. -/
theorem backlog_eq_zero (h : ∀ d, ¬ w.Holds x d) (time : Nat) : w.backlog x time = 0 := by
  have hinbox : w.inbox x = [] :=
    List.eq_nil_iff_forall_not_mem.mpr fun d hd => h d (.inl (mem_inbox hd))
  have harrivals : (w.arrivals.countP fun a => a.destination = x ∧ a.due ≤ time) = 0 := by
    rw [List.countP_eq_zero]
    intro a ha hdest
    exact h a.datagram (.inr ⟨a, ha, (by simpa using hdest : _ ∧ _).1, rfl⟩)
  rw [backlog, hinbox, harrivals, List.length_nil]

/-! ## Inboxes -/

theorem inbox_eq_nil (hx : x ∉ w.addresses) : w.inbox x = [] := by
  refine List.eq_nil_iff_forall_not_mem.mpr fun d hd => ?_
  obtain ⟨s, hs, haddress, -⟩ := mem_inbox hd
  exact hx (haddress ▸ List.mem_map_of_mem hs)

theorem length_inbox_deliver_le (w : World) (x y : Endpoint) (d : Datagram) :
    ((w.deliver y d).inbox x).length ≤ (w.inbox x).length + if x = y then 1 else 0 := by
  by_cases hx : x ∈ w.addresses
  · rw [inbox_deliver hx]
    split <;> simp
  · rw [inbox_eq_nil (by rwa [addresses_deliver])]
    exact Nat.zero_le _

theorem length_inbox_setInbox_le (w : World) (x : Endpoint) (ds : List Datagram) :
    ((w.setInbox x ds).inbox x).length ≤ ds.length := by
  by_cases hx : x ∈ w.addresses
  · exact Nat.le_of_eq (congrArg List.length (inbox_setInbox hx ds))
  · rw [inbox_eq_nil (by rwa [addresses_setInbox])]
    exact Nat.zero_le _

theorem length_rest_lt {f : Filter} {seen : Bool} {ds rest : List Datagram} {m : Message}
    (h : f.scan seen ds = .found m rest) : rest.length < ds.length := by
  obtain ⟨front, d, rfl, -, -⟩ := Filter.found_of_scan h
  rw [List.length_append, List.length_cons]
  omega

/-! ## Waiting -/

/-- A world at a later time in which a socket has lost some of its backlog, which it has read. As for what is
still to come by some time, it must not be past that time. -/
structure Spends (x : Endpoint) (time : Nat) (n : Nat) (w w' : World) : Prop where
  clock : w.clock ≤ w'.clock
  backlog : w'.clock ≤ time → w'.backlog x time + n ≤ w.backlog x time

namespace Spends

variable {m n : Nat}

theorem refl (w : World) : Spends x time 0 w w := ⟨Nat.le_refl _, fun _ => Nat.le_refl _⟩

theorem trans (h : Spends x time m w w') (h' : Spends x time n w' w'') :
    Spends x time (m + n) w w'' where
  clock := Nat.le_trans h.clock h'.clock
  backlog := by
    intro htime
    have hfirst := h.backlog (Nat.le_trans h'.clock htime)
    have hrest := h'.backlog htime
    omega

end Spends

/-- A datagram that is delivered moves from what arrives by some time to the inbox. -/
theorem backlog_deliver_le (w : World) {a : Arrival} {later : List Arrival} (hdue : a.due ≤ time) :
    { w.deliver a.destination a.datagram with arrivals := later }.backlog x time ≤
      { w with arrivals := a :: later }.backlog x time := by
  have hinbox := length_inbox_deliver_le w x a.destination a.datagram
  have hcount : (if x = a.destination then 1 else 0) ≤
      if decide (a.destination = x ∧ a.due ≤ time) = true then 1 else 0 := by
    split
    · rename_i hx
      simp [hx, hdue]
    · exact Nat.zero_le _
  simp only [backlog, List.countP_cons]
  simp only [inbox, deliver] at hinbox ⊢
  omega

theorem spends_arrive (w : World) (a : Arrival) (later : List Arrival) :
    Spends x time 0 { w with arrivals := a :: later } (w.arrive a later) where
  clock := Nat.le_max_left _ _
  backlog htime := backlog_deliver_le w (Nat.le_trans (Nat.le_max_right _ _) htime)

theorem spends_flush (w : World) (as : List Arrival) :
    Spends x time 0 { w with arrivals := as } (w.flush as) := by
  induction as generalizing w with
  | nil => exact .refl _
  | cons a later ih =>
    unfold flush
    split
    · rename_i hdue
      have hrest := ih (w.deliver a.destination a.datagram)
      refine ⟨hrest.clock, fun htime => Nat.le_trans (hrest.backlog htime) ?_⟩
      have hnow : w.clock ≤ time := Nat.le_trans hrest.clock htime
      exact backlog_deliver_le w (Nat.le_trans hdue hnow)
    · exact .refl _

theorem spends_setInbox (w : World) {ds : List Datagram} {n : Nat} (h : ds.length + n ≤ (w.inbox x).length) :
    Spends x time n w (w.setInbox x ds) := by
  refine ⟨Nat.le_refl _, fun _ => ?_⟩
  have hinbox := length_inbox_setInbox_le w x ds
  have harrivals : (w.setInbox x ds).arrivals = w.arrivals := rfl
  simp only [backlog, harrivals]
  omega

/-- What a hearing takes from the backlog: one datagram at least if a reply has been heard. -/
def Hearing.Spends (x : Endpoint) (time : Nat) (w : World) : Hearing → Prop
  | .reply _ w' => w.Spends x time 1 w'
  | .silence _ w' => w.Spends x time 0 w'

theorem Hearing.Spends.of_spends {hearing : Hearing} (h : World.Spends x time 0 w w')
    (hs : hearing.Spends x time w') : hearing.Spends x time w := by
  cases hearing with
  | reply m w'' => exact h.trans hs
  | silence seen w'' => exact h.trans hs

theorem spends_hearArrivals (f : Filter) (stop : Nat) (as : List Arrival) (seen : Bool) (w : World) :
    (hearArrivals x f stop as seen w).Spends x time { w with arrivals := as } := by
  induction as generalizing seen w with
  | nil => exact Spends.refl _
  | cons a later ih =>
    unfold hearArrivals
    split
    · refine .of_spends (spends_arrive w a later) ?_
      dsimp only
      split
      · rename_i m rest hfound
        have hread : Spends x time 1 (w.arrive a later) ((w.arrive a later).setInbox x rest) :=
          spends_setInbox _ (length_rest_lt hfound)
        exact hread.trans (spends_flush ((w.arrive a later).setInbox x rest) later)
      · have hemptied : Spends x time 0 (w.arrive a later) ((w.arrive a later).setInbox x []) :=
          spends_setInbox _ (Nat.zero_le _)
        exact .of_spends hemptied (ih _ _)
    · exact Spends.refl _

theorem spends_hear (w : World) (x : Endpoint) (f : Filter) (stop : Nat) :
    (w.hear x f stop).Spends x time w := by
  unfold hear
  split
  · rename_i m rest hfound
    exact spends_setInbox w (length_rest_lt hfound)
  · have hemptied : Spends x time 0 w (w.setInbox x []) := spends_setInbox w (Nat.zero_le _)
    exact .of_spends hemptied (spends_hearArrivals f stop _ _ _)

theorem spends_settle (w : World) (later : Nat) : Spends x time 0 w (w.settle later) := by
  have hclock : Spends x time 0 w { w with clock := max w.clock later } :=
    ⟨Nat.le_max_left _ _, fun _ => Nat.le_refl _⟩
  exact hclock.trans (spends_flush { w with clock := max w.clock later } w.arrivals)

/-- A wait takes the reply that it reads, if any, from the backlog. -/
theorem spends_awaitUntil {f : Filter} {stop : Nat} {r : Reading} (h : w.awaitUntil x f stop = (r, w')) :
    ∃ n, Spends x time n w w' ∧ ∀ m, r = .reply m → n = 1 := by
  have hs : (w.hear x f stop).Spends x time w := spends_hear w x f stop
  unfold awaitUntil at h
  split at h
  · rename_i m w₁ heard
    rw [heard] at hs
    cases h
    exact ⟨1, hs, fun _ _ => rfl⟩
  · rename_i seen w₁ heard
    rw [heard] at hs
    cases h
    refine ⟨0, Spends.trans hs (spends_settle w₁ stop), ?_⟩
    cases seen <;> nofun

theorem spends_await {net : Network} {f : Filter} {timeoutMs : Nat} {r : Reading}
    (h : w.await net x timeoutMs f = (r, w')) : ∃ n, Spends x time n w w' ∧ ∀ m, r = .reply m → n = 1 := by
  rcases await_cases h with ⟨rfl, rfl⟩ | ⟨ms, -, h⟩
  · exact ⟨0, .refl w', nofun⟩
  · exact spends_awaitUntil h

/-! ## Sending -/

/-- How many of some responses arrive at an address by some time, if they are caused at a given one. -/
def timely (x : Endpoint) (now time : Nat) (rs : List Response) : Nat :=
  rs.countP fun r => r.destination = x ∧ now + r.delay ≤ time

theorem perm_insertArrival (a : Arrival) (as : List Arrival) : (insertArrival a as).Perm (a :: as) := by
  induction as with
  | nil => exact .refl _
  | cons b rest ih =>
    unfold insertArrival
    split
    · exact (ih.cons b).trans (.swap a b rest)
    · exact .refl _

theorem backlog_respond_le (htime : w.clock ≤ time) (r : Response) :
    (w.respond r).backlog x time ≤ w.backlog x time + timely x w.clock time [r] := by
  rw [timely, List.countP_singleton, respond]
  split
  · rename_i hnow
    have hinbox := length_inbox_deliver_le w x r.destination r.datagram
    have harrivals : (w.deliver r.destination r.datagram).arrivals = w.arrivals := rfl
    have hcount : (if x = r.destination then 1 else 0) ≤
        if decide (r.destination = x ∧ w.clock + r.delay ≤ time) = true then 1 else 0 := by
      split
      · rename_i hx
        simp [hx, hnow, htime]
      · exact Nat.zero_le _
    simp only [backlog, harrivals]
    omega
  · simp only [backlog, (perm_insertArrival _ _).countP_eq, List.countP_cons]
    exact Nat.le_of_eq (Nat.add_assoc _ _ _).symm

theorem backlog_foldl_le (htime : w.clock ≤ time) (rs : List Response) :
    (rs.foldl respond w).backlog x time ≤ w.backlog x time + timely x w.clock time rs := by
  induction rs generalizing w with
  | nil => exact Nat.le_refl _
  | cons r rest ih =>
    have hfirst := backlog_respond_le (x := x) htime r
    have hrest := ih (w := w.respond r) (by rwa [clock_respond])
    rw [clock_respond] at hrest
    have hsum : timely x w.clock time (r :: rest) =
        timely x w.clock time [r] + timely x w.clock time rest := by
      rw [timely, ← List.singleton_append, List.countP_append]
      rfl
    simp only [List.foldl_cons]
    omega

theorem backlog_send_le {socket : SocketAddress} {destination : Endpoint} {payload : Bytes}
    {net : Network} {rs : List Response} (htime : w.clock ≤ time)
    (hcarry : net.carry w.log ⟨w.clock, socket, destination, payload⟩ = some rs) :
    (w.send net socket destination payload).2.backlog x time ≤
      w.backlog x time + timely x w.clock time rs := by
  rw [send, hcarry]
  exact backlog_foldl_le (w := { w with log := _ :: w.log }) htime rs

end World

end NatBehaviour.Network
