import NatBehaviour.Network.World
import NatBehaviour.Proofs.Probe.Usable

/-!
What becomes of datagrams. A world holds those that have arrived and have not been read, and those that
are on their way. Only a send brings new ones about; whatever a client reads was held before.
-/

namespace NatBehaviour.Network

open NatBehaviour.Json (Bytes)
open NatBehaviour.Net (Endpoint)
open NatBehaviour.Probe (Datagram Filter Reading)
open NatBehaviour.Wire (Message)

section Patience

variable {net : Network} {log : List (Transmission × Bool)} {socket : SocketAddress} {timeoutMs : Nat}

theorem patience_le {ms : Nat} (h : net.patience log socket timeoutMs = some ms) : ms ≤ timeoutMs := by
  unfold patience at h
  split at h
  · exact Nat.le_of_eq (Option.some.inj h).symm
  · cases h
  · cases h
    exact Nat.min_le_right _ _

theorem patience_of_no_failure (h : net.failure log socket = none) :
    net.patience log socket timeoutMs = some timeoutMs := by
  rw [patience, h]

/-- No wait is cut short by an error. -/
def ErrorFree (net : Network) : Prop := ∀ log socket, net.failure log socket = none

end Patience

namespace World

/-- A datagram has arrived at an address and has not been read, or is on its way there. -/
def Holds (w : World) (x : Endpoint) (d : Datagram) : Prop :=
  (∃ s ∈ w.sockets, s.address = x ∧ d ∈ s.inbox) ∨
    ∃ a ∈ w.arrivals, a.destination = x ∧ a.datagram = d

/-- The addresses of the program's own sockets. -/
def addresses (w : World) : List Endpoint := w.sockets.map (·.address)

/-- What is on its way is in order of arrival. -/
def Sorted (w : World) : Prop := w.arrivals.Pairwise (·.due ≤ ·.due)

/-- A world after something else than a send: no datagram has been added to it. -/
structure Quiet (w w' : World) : Prop where
  taken : w'.taken = w.taken
  log : w'.log = w.log
  holds : ∀ {x d}, w'.Holds x d → w.Holds x d
  sorted : w.Sorted → w'.Sorted

/-- A world in which some time may have passed and some datagrams may have been read, but nothing else
has happened. -/
structure Later (w w' : World) : Prop extends Quiet w w' where
  addresses : w'.addresses = w.addresses

theorem Quiet.refl (w : World) : Quiet w w := ⟨rfl, rfl, id, id⟩

theorem Quiet.trans {w w' w'' : World} (h : Quiet w w') (h' : Quiet w' w'') : Quiet w w'' where
  taken := h'.taken.trans h.taken
  log := h'.log.trans h.log
  holds := fun hd => h.holds (h'.holds hd)
  sorted := fun hs => h'.sorted (h.sorted hs)

theorem Later.refl (w : World) : Later w w := ⟨.refl w, rfl⟩

theorem Later.trans {w w' w'' : World} (h : Later w w') (h' : Later w' w'') : Later w w'' :=
  ⟨h.toQuiet.trans h'.toQuiet, h'.addresses.trans h.addresses⟩

variable {w w' : World} {x : Endpoint} {d : Datagram}

/-! ## Inboxes -/

theorem mem_inbox (h : d ∈ w.inbox x) : ∃ s ∈ w.sockets, s.address = x ∧ d ∈ s.inbox := by
  simp only [inbox] at h
  cases hf : w.sockets.find? (·.address = x) with
  | none => simp [hf] at h
  | some s =>
    have haddress := List.find?_some hf
    exact ⟨s, List.mem_of_find?_eq_some hf, by simpa using haddress, by simpa [hf] using h⟩

theorem map_map_address {f : Socket → Socket} (hf : ∀ s, (f s).address = s.address)
    (sockets : List Socket) : (sockets.map f).map (·.address) = sockets.map (·.address) := by
  rw [List.map_map]
  exact List.map_congr_left fun s _ => hf s

theorem addresses_deliver (w : World) (y : Endpoint) (e : Datagram) :
    (w.deliver y e).addresses = w.addresses :=
  map_map_address (fun s => by split <;> rfl) w.sockets

theorem addresses_setInbox (w : World) (y : Endpoint) (ds : List Datagram) :
    (w.setInbox y ds).addresses = w.addresses :=
  map_map_address (fun s => by split <;> rfl) w.sockets

theorem find_map_inbox {f : Socket → Socket} (hf : ∀ s, (f s).address = s.address)
    (sockets : List Socket) :
    (sockets.map f).find? (·.address = x) = (sockets.find? (·.address = x)).map f := by
  induction sockets with
  | nil => rfl
  | cons s ss ih =>
    simp only [List.map_cons, List.find?_cons, hf, ih]
    split <;> rfl

theorem exists_find_of_mem_addresses (h : x ∈ w.addresses) :
    ∃ s, w.sockets.find? (·.address = x) = some s := by
  obtain ⟨s, hs, hx⟩ := List.mem_map.mp h
  rw [← Option.isSome_iff_exists, List.find?_isSome]
  exact ⟨s, hs, by simpa using hx⟩

/-- A delivery adds one datagram to one inbox. -/
theorem inbox_deliver (hx : x ∈ w.addresses) (y : Endpoint) (e : Datagram) :
    (w.deliver y e).inbox x = if x = y then w.inbox x ++ [e] else w.inbox x := by
  obtain ⟨s, hs⟩ := exists_find_of_mem_addresses hx
  have haddress : s.address = x := by simpa using List.find?_some hs
  have hfind := find_map_inbox (x := x)
    (f := fun s => if s.address = y then { s with inbox := s.inbox ++ [e] } else s)
    (fun s => by split <;> rfl) w.sockets
  simp only [inbox, deliver, hfind, hs, Option.map_some, Option.getD_some, haddress]
  split <;> rfl

theorem inbox_setInbox (hx : x ∈ w.addresses) (ds : List Datagram) : (w.setInbox x ds).inbox x = ds := by
  obtain ⟨s, hs⟩ := exists_find_of_mem_addresses hx
  have haddress : s.address = x := by simpa using List.find?_some hs
  have hfind := find_map_inbox (x := x) (f := fun s => if s.address = x then { s with inbox := ds } else s)
    (fun s => by split <;> rfl) w.sockets
  simp only [inbox, setInbox, hfind, hs, Option.map_some, Option.getD_some, haddress, if_pos]

/-! ## Time passing -/

theorem later_deliver (w : World) (a : Arrival) (later : List Arrival) :
    Later { w with arrivals := a :: later }
      { w.deliver a.destination a.datagram with arrivals := later } where
  taken := rfl
  log := rfl
  addresses := addresses_deliver w a.destination a.datagram
  holds := by
    rintro x d (⟨s', hs', rfl, hd⟩ | ⟨b, hb, hdest, hdatagram⟩)
    · obtain ⟨s, hs, rfl⟩ := List.mem_map.mp hs'
      split at hd
      · rename_i hdest
        rcases List.mem_append.mp hd with hd | hd
        · exact .inl ⟨s, hs, by rw [if_pos hdest], hd⟩
        · rw [List.mem_singleton.mp hd]
          exact .inr ⟨a, List.mem_cons_self, by rw [if_pos hdest]; exact hdest.symm, rfl⟩
      · rename_i hdest
        exact .inl ⟨s, hs, by rw [if_neg hdest], hd⟩
    · exact .inr ⟨b, List.mem_cons_of_mem a hb, hdest, hdatagram⟩
  sorted := fun hs => (List.pairwise_cons.mp hs).2

theorem later_clock (w : World) (time : Nat) : Later w { w with clock := time } :=
  ⟨⟨rfl, rfl, id, id⟩, rfl⟩

theorem later_arrive (w : World) (a : Arrival) (later : List Arrival) :
    Later { w with arrivals := a :: later } (w.arrive a later) :=
  (later_deliver w a later).trans (later_clock _ (max w.clock a.due))

theorem later_flush (w : World) (as : List Arrival) : Later { w with arrivals := as } (w.flush as) := by
  induction as generalizing w with
  | nil => exact .refl _
  | cons a later ih =>
    unfold flush
    split
    · exact (later_deliver w a later).trans (ih _)
    · exact .refl _

theorem later_setInbox (w : World) (x : Endpoint) {ds : List Datagram}
    (hds : ∀ d ∈ ds, d ∈ w.inbox x) : Later w (w.setInbox x ds) where
  taken := rfl
  log := rfl
  addresses := addresses_setInbox w x ds
  holds := by
    rintro y d (⟨s', hs', rfl, hd⟩ | harrival)
    · obtain ⟨s, hs, rfl⟩ := List.mem_map.mp hs'
      split at hd
      · rename_i haddress
        obtain ⟨s₀, hs₀, h₀, hd₀⟩ := mem_inbox (hds d hd)
        exact .inl ⟨s₀, hs₀, by rw [if_pos haddress]; exact h₀.trans haddress.symm, hd₀⟩
      · rename_i haddress
        exact .inl ⟨s, hs, by rw [if_neg haddress], hd⟩
    · exact .inr harrival
  sorted := id

/-! ## Sockets -/

variable {net : Network} {address : Endpoint}

theorem quiet_bindSocket {r : Except OsError SocketAddress}
    (h : w.bindSocket net address = (r, w')) : Quiet w w' := by
  unfold bindSocket at h
  split at h
  · cases h
    exact .refl w
  · cases h
    refine ⟨rfl, rfl, ?_, id⟩
    rintro x d (⟨s, hs, haddress, hd⟩ | harrival)
    · rcases List.mem_append.mp hs with hs | hs
      · exact .inl ⟨s, hs, haddress, hd⟩
      · rw [List.mem_singleton.mp hs] at hd
        cases hd
    · exact .inr harrival

/-- What the network answers decides whether a socket is bound, and to which address. -/
theorem bindSocket_ok (h : w.bindSocket net address = (.ok x, w')) :
    net.bind (w.taken ++ w.addresses) address = .ok x ∧ w'.addresses = w.addresses ++ [x] := by
  unfold bindSocket at h
  split at h
  · cases h
  · rename_i bound hbound
    cases h
    exact ⟨hbound, by simp [addresses]⟩

theorem bindSocket_error {e : OsError} (h : w.bindSocket net address = (.error e, w')) :
    net.bind (w.taken ++ w.addresses) address = .error e := by
  unfold bindSocket at h
  split at h
  · rename_i he
    cases h
    exact he
  · cases h

theorem addresses_closeSocket (w : World) (socket : SocketAddress) :
    (w.closeSocket socket).addresses = w.addresses.erase socket := by
  rw [addresses, closeSocket, addresses, List.erase_eq_eraseP', List.eraseP_map]
  rfl

theorem quiet_closeSocket (w : World) (socket : SocketAddress) : Quiet w (w.closeSocket socket) := by
  refine ⟨rfl, rfl, ?_, id⟩
  rintro x d (⟨s, hs, haddress, hd⟩ | harrival)
  · exact .inl ⟨s, List.mem_of_mem_eraseP hs, haddress, hd⟩
  · exact .inr harrival

/-! ## What a client hears -/

theorem scan_found {f : Filter} {seen : Bool} {ds rest : List Datagram} {m : Message}
    (h : f.scan seen ds = .found m rest) :
    (∃ d ∈ ds, f.judge d = .usable m) ∧ ∀ d ∈ rest, d ∈ ds := by
  obtain ⟨front, d, rfl, -, hd⟩ := Filter.found_of_scan h
  exact ⟨⟨d, by simp, Filter.reply?_eq_some_iff.mp hd⟩, fun e he => by simp [he]⟩

/-- What a hearing makes of a world: time has passed, and a reply that was heard was held before. -/
def Hearing.Sound (w : World) (x : Endpoint) (f : Filter) : Hearing → Prop
  | .reply m w' => Later w w' ∧ ∃ d, w.Holds x d ∧ f.judge d = .usable m
  | .silence _ w' => Later w w'

theorem Hearing.Sound.of_later {f : Filter} {hearing : Hearing} (h : Later w w')
    (hs : hearing.Sound w' x f) : hearing.Sound w x f := by
  cases hearing with
  | reply m w'' =>
    obtain ⟨hl, d, hd, hj⟩ := hs
    exact ⟨h.trans hl, d, h.holds hd, hj⟩
  | silence seen w'' => exact h.trans hs

theorem sound_hearArrivals (f : Filter) (stop : Nat) (as : List Arrival) (seen : Bool) (w : World) :
    (hearArrivals x f stop as seen w).Sound { w with arrivals := as } x f := by
  induction as generalizing seen w with
  | nil => exact Later.refl _
  | cons a later ih =>
    unfold hearArrivals
    split
    · refine .of_later (later_arrive w a later) ?_
      dsimp only
      split
      · rename_i m rest hfound
        obtain ⟨⟨d, hd, hj⟩, hrest⟩ := scan_found hfound
        have hflush := later_flush ((w.arrive a later).setInbox x rest) later
        exact ⟨(later_setInbox _ x hrest).trans hflush, d, .inl (mem_inbox hd), hj⟩
      · exact .of_later (later_setInbox _ x (by simp)) (ih _ _)
    · exact Later.refl _

theorem sound_hear (w : World) (x : Endpoint) (f : Filter) (stop : Nat) :
    (w.hear x f stop).Sound w x f := by
  unfold hear
  split
  · rename_i m rest hfound
    obtain ⟨⟨d, hd, hj⟩, hrest⟩ := scan_found hfound
    exact ⟨later_setInbox w x hrest, d, .inl (mem_inbox hd), hj⟩
  · exact .of_later (later_setInbox w x (by simp)) (sound_hearArrivals f stop _ _ _)

theorem later_settle (w : World) (time : Nat) : Later w (w.settle time) :=
  (later_clock w (max w.clock time)).trans
    (later_flush { w with clock := max w.clock time } w.arrivals)

/-- A wait reads nothing but what was held, and leaves everything else as it was. -/
theorem awaitUntil_sound {f : Filter} {stop : Nat} {r : Reading}
    (h : w.awaitUntil x f stop = (r, w')) :
    Later w w' ∧ ∀ m, r = .reply m → ∃ d, w.Holds x d ∧ f.judge d = .usable m := by
  have hs := sound_hear w x f stop
  unfold awaitUntil at h
  split at h
  · rename_i m w₁ heard
    rw [heard] at hs
    cases h
    refine ⟨hs.1, ?_⟩
    intro m' hm
    cases hm
    exact hs.2
  · rename_i seen w₁ heard
    rw [heard] at hs
    cases h
    refine ⟨Later.trans hs (later_settle w₁ stop), ?_⟩
    intro m' hm
    cases seen <;> cases hm

section Await

variable {f : Filter} {timeoutMs : Nat} {r : Reading}

/-- A wait ends with an error at once, or is one up to some time. -/
theorem await_cases (h : w.await net x timeoutMs f = (r, w')) :
    (r = .nothing ∧ w' = w) ∨ ∃ ms ≤ timeoutMs, w.awaitUntil x f (w.clock + ms) = (r, w') := by
  unfold await at h
  split at h
  · cases h
    exact .inl ⟨rfl, rfl⟩
  · rename_i ms hpatience
    exact .inr ⟨ms, patience_le hpatience, h⟩

/-- Without an error a wait lasts as long as it should. -/
theorem await_of_no_failure (hnet : net.failure w.log x = none) :
    w.await net x timeoutMs f = w.awaitUntil x f (w.clock + timeoutMs) := by
  rw [await, patience_of_no_failure hnet]

theorem await_sound (h : w.await net x timeoutMs f = (r, w')) :
    Later w w' ∧ ∀ m, r = .reply m → ∃ d, w.Holds x d ∧ f.judge d = .usable m := by
  rcases await_cases h with ⟨rfl, rfl⟩ | ⟨ms, -, h⟩
  · exact ⟨.refl w', nofun⟩
  · exact awaitUntil_sound h

end Await

/-! ## What arrives in time -/

/-- A datagram has arrived at an address, or arrives there before some time. -/
def Pending (w : World) (x : Endpoint) (stop : Nat) (d : Datagram) : Prop :=
  d ∈ w.inbox x ∨ ∃ a ∈ w.arrivals, a.destination = x ∧ a.datagram = d ∧ a.due < stop

/-! ## What a send brings about -/

theorem mem_insertArrival {a b : Arrival} {as : List Arrival} :
    b ∈ insertArrival a as ↔ b = a ∨ b ∈ as := by
  induction as with
  | nil => simp [insertArrival]
  | cons c cs ih =>
    unfold insertArrival
    split
    · simp only [List.mem_cons, ih, or_left_comm]
    · simp only [List.mem_cons]

theorem sorted_insertArrival {a : Arrival} {as : List Arrival} (h : as.Pairwise (·.due ≤ ·.due)) :
    (insertArrival a as).Pairwise (·.due ≤ ·.due) := by
  induction as with
  | nil => simp [insertArrival]
  | cons c cs ih =>
    obtain ⟨hfirst, hlater⟩ := List.pairwise_cons.mp h
    unfold insertArrival
    split
    · rename_i hle
      refine List.pairwise_cons.mpr ⟨?_, ih hlater⟩
      intro b hb
      rcases mem_insertArrival.mp hb with rfl | hb
      · exact hle
      · exact hfirst b hb
    · rename_i hlt
      refine List.pairwise_cons.mpr ⟨?_, h⟩
      intro b hb
      rcases List.mem_cons.mp hb with rfl | hb
      · omega
      · have := hfirst b hb
        omega

section Respond

variable {r : Response} {rs : List Response}

theorem addresses_respond (w : World) (r : Response) : (w.respond r).addresses = w.addresses := by
  unfold respond
  split
  · exact addresses_deliver w _ _
  · rfl

theorem taken_respond (w : World) (r : Response) : (w.respond r).taken = w.taken := by
  unfold respond
  split <;> rfl

theorem log_respond (w : World) (r : Response) : (w.respond r).log = w.log := by
  unfold respond
  split <;> rfl

theorem clock_respond (w : World) (r : Response) : (w.respond r).clock = w.clock := by
  unfold respond
  split <;> rfl

theorem sorted_respond (h : w.Sorted) (r : Response) : (w.respond r).Sorted := by
  unfold respond
  split
  · exact h
  · exact sorted_insertArrival h

theorem holds_respond (h : (w.respond r).Holds x d) :
    w.Holds x d ∨ r.destination = x ∧ r.datagram = d := by
  unfold respond at h
  split at h
  · have hl := (later_deliver w ⟨w.clock, r.destination, r.datagram⟩ w.arrivals).holds h
    rcases hl with hs | ⟨a, ha, hdest, hd⟩
    · exact .inl (.inl hs)
    · rcases List.mem_cons.mp ha with rfl | ha
      · exact .inr ⟨hdest, hd⟩
      · exact .inl (.inr ⟨a, ha, hdest, hd⟩)
  · rcases h with hs | ⟨a, ha, hdest, hd⟩
    · exact .inl (.inl hs)
    · rcases mem_insertArrival.mp ha with rfl | ha
      · exact .inr ⟨hdest, hd⟩
      · exact .inl (.inr ⟨a, ha, hdest, hd⟩)

theorem pending_respond (hx : r.destination ∈ w.addresses) {timeout : Nat}
    (hdelay : r.delay < timeout) :
    (w.respond r).Pending r.destination (w.clock + timeout) r.datagram := by
  unfold respond
  split
  · refine .inl ?_
    rw [inbox_deliver hx, if_pos rfl]
    exact List.mem_append_right _ List.mem_cons_self
  · exact .inr ⟨_, mem_insertArrival.mpr (.inl rfl), rfl, rfl, by simpa using hdelay⟩

theorem Pending.respond {stop : Nat} (hx : x ∈ w.addresses) (h : w.Pending x stop d) (r : Response) :
    (w.respond r).Pending x stop d := by
  rw [World.respond]
  rcases h with h | ⟨a, ha, hdest, hd, hdue⟩
  · split
    · refine .inl ?_
      rw [inbox_deliver hx]
      split
      · exact List.mem_append_left _ h
      · exact h
    · exact .inl h
  · split
    · exact .inr ⟨a, ha, hdest, hd, hdue⟩
    · exact .inr ⟨a, mem_insertArrival.mpr (.inr ha), hdest, hd, hdue⟩

/-- The world after a number of responses: nothing has happened to it but that it holds them. -/
structure Responded (rs : List Response) (w w' : World) : Prop where
  taken : w'.taken = w.taken
  log : w'.log = w.log
  addresses : w'.addresses = w.addresses
  clock : w'.clock = w.clock
  sorted : w.Sorted → w'.Sorted
  holds : ∀ {x d}, w'.Holds x d → w.Holds x d ∨ ∃ r ∈ rs, r.destination = x ∧ r.datagram = d
  pending : ∀ {x d stop}, x ∈ w.addresses → w.Pending x stop d → w'.Pending x stop d
  soon : ∀ {r timeout}, r ∈ rs → r.destination ∈ w.addresses → r.delay < timeout →
    w'.Pending r.destination (w.clock + timeout) r.datagram

theorem responded_foldl (rs : List Response) (w : World) : Responded rs w (rs.foldl respond w) := by
  induction rs generalizing w with
  | nil => exact ⟨rfl, rfl, rfl, rfl, id, .inl, fun _ h => h, fun h => absurd h List.not_mem_nil⟩
  | cons r rs ih =>
    have h := ih (w.respond r)
    have haddresses := addresses_respond w r
    refine ⟨h.taken.trans (taken_respond w r), h.log.trans (log_respond w r), h.addresses.trans haddresses,
      h.clock.trans (clock_respond w r), fun hs => h.sorted (sorted_respond hs r), ?_, ?_, ?_⟩
    · intro x d hd
      rcases h.holds hd with hd | ⟨r', hr', hdest, hd⟩
      · rcases holds_respond hd with hd | hd
        · exact .inl hd
        · exact .inr ⟨r, List.mem_cons_self, hd⟩
      · exact .inr ⟨r', List.mem_cons_of_mem r hr', hdest, hd⟩
    · intro x d stop hx hd
      exact h.pending (by rwa [haddresses]) (hd.respond hx r)
    · intro r' timeout hr' hx hdelay
      rcases List.mem_cons.mp hr' with rfl | hr'
      · exact h.pending (by rwa [haddresses]) (pending_respond hx hdelay)
      · have hsoon := h.soon hr' (by rwa [haddresses]) hdelay
        rwa [clock_respond] at hsoon

end Respond

theorem send_true {payload : Bytes} (h : w.send net x address payload = (true, w')) :
    ∃ rs, net.carry w.log ⟨w.clock, x, address, payload⟩ = some rs ∧
      Responded rs { w with log := (⟨w.clock, x, address, payload⟩, true) :: w.log } w' := by
  rw [send] at h
  split at h
  · cases h
  · rename_i rs hcarry
    cases h
    exact ⟨rs, hcarry, responded_foldl rs _⟩

theorem send_false {payload : Bytes} (h : w.send net x address payload = (false, w')) :
    net.carry w.log ⟨w.clock, x, address, payload⟩ = none ∧
      w' = { w with log := (⟨w.clock, x, address, payload⟩, false) :: w.log } := by
  rw [send] at h
  split at h
  · rename_i hcarry
    cases h
    exact ⟨hcarry, rfl⟩
  · cases h

end World

end NatBehaviour.Network
