import NatBehaviour.Proofs.Network.Clock
import NatBehaviour.Proofs.Network.Noise
import NatBehaviour.Proofs.Network.Queue
import NatBehaviour.Proofs.Network.Sockets

/-!
Datagrams for an address that no socket is bound to. They are lost when they arrive: a world in which they
were never on their way gives the same answer to every action and goes on alike.
-/

namespace NatBehaviour.Network

open NatBehaviour.Json (Bytes)
open NatBehaviour.Net (Endpoint)
open NatBehaviour.Probe (Datagram Filter Reading)
open NatBehaviour.Wire (Message)

/-- An action that neither binds a socket nor closes one. -/
def Action.KeepsSockets : Action → Prop
  | .bind _ | .close _ => False
  | _ => True

/-- Those of some arrivals that are for other addresses. -/
def elsewhere (x : Endpoint) (as : List Arrival) : List Arrival := as.filter (·.destination ≠ x)

theorem elsewhere_cons_self {x : Endpoint} {a : Arrival} (h : a.destination = x) (as : List Arrival) :
    elsewhere x (a :: as) = elsewhere x as := by
  simp [elsewhere, h]

theorem elsewhere_cons_of_ne {x : Endpoint} {a : Arrival} (h : a.destination ≠ x) (as : List Arrival) :
    elsewhere x (a :: as) = a :: elsewhere x as := by
  simp [elsewhere, h]

namespace World

variable {w v : World} {x y : Endpoint} {f : Filter} {stop : Nat}

/-- The same world, but that nothing is on its way to an address. -/
def without (x : Endpoint) (w : World) : World := { w with arrivals := elsewhere x w.arrivals }

/-- A delivery to an address that no socket is bound to is lost. -/
theorem deliver_of_not_mem (hx : x ∉ w.addresses) (d : Datagram) : w.deliver x d = w := by
  have hsockets : w.sockets.map (fun s => if s.address = x then { s with inbox := s.inbox ++ [d] } else s) =
      w.sockets := by
    refine (List.map_congr_left fun s hs => ?_).trans (List.map_id _)
    have hne : s.address ≠ x := fun heq => hx (heq ▸ List.mem_map_of_mem hs)
    rw [if_neg hne, id]
  simp only [deliver, hsockets]

theorem setInbox_of_emptied (h : Emptied y w) : w.setInbox y [] = w := by
  have hsockets : w.sockets.map (fun s => if s.address = y then { s with inbox := [] } else s) =
      w.sockets := by
    refine (List.map_congr_left fun s hs => ?_).trans (List.map_id _)
    split
    · rename_i heq
      rw [← h s hs heq, id]
    · rfl
  simp only [setInbox, hsockets]

/-! ## Worlds with the same sockets -/

/-- Worlds that differ only in the time and in what is on its way. -/
structure Twin (w v : World) : Prop where
  taken : v.taken = w.taken
  sockets : v.sockets = w.sockets
  log : v.log = w.log

namespace Twin

/-- At the same time, with nothing else on its way but what is for another address. -/
theorem eq_without (h : Twin w v) (hclock : v.clock = w.clock) {as bs : List Arrival}
    (has : as = elsewhere x bs) : { w with arrivals := as } = World.without x { v with arrivals := bs } := by
  cases v
  cases w
  obtain ⟨htaken, hsockets, hlog⟩ := h
  simp_all [World.without]

theorem addresses (h : Twin w v) : v.addresses = w.addresses := by
  rw [World.addresses, World.addresses, h.sockets]

theorem inbox (h : Twin w v) (y : Endpoint) : v.inbox y = w.inbox y := by
  rw [World.inbox, World.inbox, h.sockets]

theorem deliver (h : Twin w v) (y : Endpoint) (d : Datagram) : Twin (w.deliver y d) (v.deliver y d) :=
  ⟨h.taken, congrArg (List.map _) h.sockets, h.log⟩

theorem setInbox (h : Twin w v) (y : Endpoint) (ds : List Datagram) :
    Twin (w.setInbox y ds) (v.setInbox y ds) :=
  ⟨h.taken, congrArg (List.map _) h.sockets, h.log⟩

theorem arrive (h : Twin w v) (a : Arrival) (later later' : List Arrival) :
    Twin (w.arrive a later) (v.arrive a later') :=
  Twin.deliver (w := { w with clock := max w.clock a.due, arrivals := later })
    (v := { v with clock := max v.clock a.due, arrivals := later' }) ⟨h.taken, h.sockets, h.log⟩ _ _

theorem emptied (h : Twin w v) (hempty : Emptied y w) : Emptied y v := by
  intro s hs
  rw [h.sockets] at hs
  exact hempty s hs

/-- An arrival for an address that no socket is bound to changes nothing but the time. -/
theorem arrive_of_not_mem (h : Twin w v) (hx : x ∉ w.addresses) {a : Arrival} (ha : a.destination = x)
    (later : List Arrival) : Twin w (v.arrive a later) := by
  have hlost : v.arrive a later = { v with clock := max v.clock a.due, arrivals := later } := by
    rw [World.arrive, ha]
    exact deliver_of_not_mem (by rwa [← h.addresses] at hx) _
  rw [hlost]
  exact ⟨h.taken, h.sockets, h.log⟩

end Twin

/-! ## Time passing -/

theorem flush_elsewhere {as : List Arrival} (h : Twin w v) (hclock : v.clock = w.clock)
    (hx : x ∉ w.addresses) (hsorted : as.Pairwise (·.due ≤ ·.due)) :
    w.flush (elsewhere x as) = (v.flush as).without x := by
  induction as generalizing w v with
  | nil => exact h.eq_without hclock rfl
  | cons a later ih =>
    obtain ⟨hfirst, hlater⟩ := List.pairwise_cons.mp hsorted
    by_cases ha : a.destination = x
    · rw [elsewhere_cons_self ha]
      by_cases hdue : a.due ≤ v.clock
      · rw [flush.eq_def v (a :: later)]
        dsimp only
        rw [if_pos hdue, ha, deliver_of_not_mem (by rwa [h.addresses])]
        exact ih h hclock hx hlater
      -- Nothing behind it is due either, so nothing else is delivered in either world.
      · have hlate : ∀ b ∈ elsewhere x later, w.clock < b.due := by
          intro b hb
          have hab := hfirst b (List.mem_of_mem_filter hb)
          omega
        rw [flush_of_lt hlate, flush.eq_def v (a :: later)]
        dsimp only
        rw [if_neg hdue]
        exact h.eq_without hclock (elsewhere_cons_self ha later).symm
    · rw [elsewhere_cons_of_ne ha]
      unfold flush
      by_cases hdue : a.due ≤ v.clock
      · rw [if_pos (hclock ▸ hdue), if_pos hdue]
        exact ih (h.deliver _ _) hclock (by rwa [addresses_deliver]) hlater
      · rw [if_neg (hclock ▸ hdue), if_neg hdue]
        exact h.eq_without hclock (elsewhere_cons_of_ne ha later).symm

/-! ## Waiting -/

/-- Two hearings of the same reply, or of none. What was lost meanwhile may have let more time pass in the
second one, but not more than the wait takes. -/
inductive Unheard (x : Endpoint) (stop : Nat) : Hearing → Hearing → Prop
  | reply (m : Message) (v : World) : Unheard x stop (.reply m (v.without x)) (.reply m v)
  | silence (seen : Bool) {w v : World} (h : Twin w v) (hclock : max v.clock stop = max w.clock stop)
      (harrivals : w.arrivals = elsewhere x v.arrivals) (hsorted : v.Sorted) (hx : x ∉ w.addresses) :
      Unheard x stop (.silence seen w) (.silence seen v)

/-- The inbox has been emptied, so that a datagram that is lost leaves nothing to be read. -/
theorem unheard_hearArrivals {as : List Arrival} {seen : Bool} (h : Twin w v) (hx : x ∉ w.addresses)
    (hempty : Emptied y w) (hsorted : as.Pairwise (·.due ≤ ·.due))
    (hstop : max v.clock stop = max w.clock stop)
    (hahead : ∀ a ∈ as, max v.clock a.due = max w.clock a.due) :
    Unheard x stop (hearArrivals y f stop (elsewhere x as) seen w) (hearArrivals y f stop as seen v) := by
  induction as generalizing seen w v with
  | nil => exact .silence seen ⟨h.taken, h.sockets, h.log⟩ hstop rfl .nil hx
  | cons a later ih =>
    obtain ⟨hfirst, hlater⟩ := List.pairwise_cons.mp hsorted
    by_cases ha : a.destination = x
    · rw [elsewhere_cons_self ha]
      by_cases hdue : a.due < stop
      · have harrive := h.arrive_of_not_mem hx ha later
        have hemptied : Emptied y (v.arrive a later) := harrive.emptied hempty
        rw [hearArrivals.eq_def y f stop (a :: later)]
        dsimp only
        rw [if_pos hdue, check, hemptied.inbox, Filter.scan]
        dsimp only
        rw [setInbox_of_emptied hemptied]
        -- The clock of the second world may run ahead here, but not beyond what comes next.
        refine ih harrive hx hempty hlater ?_ ?_
        · rw [clock_arrive]
          omega
        · intro b hb
          have hab := hfirst b hb
          have hb' := hahead b (List.mem_cons_of_mem a hb)
          rw [clock_arrive]
          omega
      · have hlate : ∀ b ∈ elsewhere x later, stop ≤ b.due := by
          intro b hb
          have hab := hfirst b (List.mem_of_mem_filter hb)
          omega
        rw [hearArrivals_of_le hlate, hearArrivals.eq_def y f stop (a :: later)]
        dsimp only
        rw [if_neg hdue]
        exact .silence seen ⟨h.taken, h.sockets, h.log⟩ hstop (elsewhere_cons_self ha later).symm hsorted hx
    · rw [elsewhere_cons_of_ne ha]
      unfold hearArrivals
      split
      · have harrive := h.arrive a (elsewhere x later) later
        have hclock : (v.arrive a later).clock = (w.arrive a (elsewhere x later)).clock :=
          hahead a List.mem_cons_self
        have hx' : x ∉ (w.arrive a (elsewhere x later)).addresses := by
          rw [arrive, addresses_deliver]
          exact hx
        dsimp only
        rw [check, check, harrive.inbox]
        split
        · rename_i m rest _
          have hflush := flush_elsewhere (harrive.setInbox y rest) hclock
            (by rwa [addresses_setInbox]) hlater
          rw [hflush]
          exact .reply m _
        · refine ih (harrive.setInbox y []) (by rwa [addresses_setInbox]) (emptied_setInbox _ y) hlater
            ?_ fun b _ => ?_
          · exact congrArg (max · stop) hclock
          · exact congrArg (max · b.due) hclock
      · exact .silence seen ⟨h.taken, h.sockets, h.log⟩ hstop (elsewhere_cons_of_ne ha later).symm hsorted hx

theorem unheard_hear (hx : x ∉ w.addresses) (hsorted : w.Sorted) :
    Unheard x stop ((w.without x).hear y f stop) (w.hear y f stop) := by
  have hsame : (w.without x).check y f false = w.check y f false := rfl
  unfold hear
  rw [hsame]
  split
  · rename_i m rest _
    exact .reply m (w.setInbox y rest)
  · refine unheard_hearArrivals ⟨rfl, rfl, rfl⟩ ?_ (emptied_setInbox _ y) hsorted rfl fun _ _ => rfl
    rw [addresses_setInbox]
    exact hx

theorem awaitUntil_without (hx : x ∉ w.addresses) (hsorted : w.Sorted) :
    (w.without x).awaitUntil y f stop =
      ((w.awaitUntil y f stop).1, (w.awaitUntil y f stop).2.without x) := by
  have hheard : Unheard x stop ((w.without x).hear y f stop) (w.hear y f stop) := unheard_hear hx hsorted
  unfold awaitUntil
  generalize (w.without x).hear y f stop = r, w.hear y f stop = r' at hheard
  cases hheard with
  | reply m v => rfl
  | @silence seen u v h hclock harrivals hsorted' hx' =>
    have hflush := flush_elsewhere (w := { u with clock := max u.clock stop })
      (v := { v with clock := max v.clock stop }) ⟨h.taken, h.sockets, h.log⟩ hclock hx' hsorted'
    have hsettle : u.settle stop = (v.settle stop).without x :=
      (congrArg (World.flush { u with clock := max u.clock stop }) harrivals).trans hflush
    exact congrArg (Prod.mk _) hsettle

theorem await_without {net : Network} {timeoutMs : Nat} (hx : x ∉ w.addresses) (hsorted : w.Sorted) :
    (w.without x).await net y timeoutMs f =
      ((w.await net y timeoutMs f).1, (w.await net y timeoutMs f).2.without x) := by
  unfold await
  rw [show (w.without x).log = w.log from rfl, show (w.without x).clock = w.clock from rfl]
  cases net.patience w.log y timeoutMs with
  | none => rfl
  | some ms => exact awaitUntil_without hx hsorted

/-! ## Sending -/

theorem elsewhere_insertArrival {as : List Arrival} (hsorted : as.Pairwise (·.due ≤ ·.due)) (a : Arrival) :
    elsewhere x (insertArrival a as) =
      if a.destination = x then elsewhere x as else insertArrival a (elsewhere x as) := by
  induction as with
  | nil =>
    by_cases ha : a.destination = x
    · simp [elsewhere, insertArrival, ha]
    · simp [elsewhere, insertArrival, ha]
  | cons b later ih =>
    obtain ⟨hfirst, hlater⟩ := List.pairwise_cons.mp hsorted
    rw [insertArrival]
    split
    · rename_i hdue
      by_cases hb : b.destination = x
      · rw [elsewhere_cons_self hb, elsewhere_cons_self hb, ih hlater]
      · rw [elsewhere_cons_of_ne hb, elsewhere_cons_of_ne hb, ih hlater, insertArrival, if_pos hdue]
        split <;> rfl
    · rename_i hdue
      have hlate : ∀ c ∈ elsewhere x (b :: later), a.due < c.due := by
        intro c hc
        rcases List.mem_cons.mp (List.mem_of_mem_filter hc) with rfl | hc
        · omega
        · have hbc := hfirst c hc
          omega
      rw [insertArrival_of_lt hlate]
      split
      · rename_i ha
        exact elsewhere_cons_self ha _
      · rename_i ha
        exact elsewhere_cons_of_ne ha _

theorem without_without (x : Endpoint) (w : World) : (w.without x).without x = w.without x := by
  simp [without, elsewhere]

theorem sorted_without (h : w.Sorted) : (w.without x).Sorted := List.Pairwise.filter _ h

theorem respond_without (h : w.Sorted) (r : Response) :
    ((w.without x).respond r).without x = (w.respond r).without x := by
  unfold respond
  split
  · exact without_without x (w.deliver r.destination r.datagram)
  · have hinsert := elsewhere_insertArrival (x := x) h ⟨w.clock + r.delay, r.destination, r.datagram⟩
    have hinsert' := elsewhere_insertArrival (x := x) (sorted_without (x := x) h)
      ⟨w.clock + r.delay, r.destination, r.datagram⟩
    have hkept : elsewhere x (elsewhere x w.arrivals) = elsewhere x w.arrivals := by simp [elsewhere]
    simp only [without] at hinsert' ⊢
    rw [hinsert, hinsert', hkept]

theorem foldl_respond_without (h : w.Sorted) (rs : List Response) :
    (rs.foldl respond (w.without x)).without x = (rs.foldl respond w).without x := by
  induction rs generalizing w with
  | nil => exact without_without x w
  | cons r rs ih =>
    have hsorted := sorted_respond (sorted_without (x := x) h) r
    calc (rs.foldl respond ((w.without x).respond r)).without x
        = (rs.foldl respond (((w.without x).respond r).without x)).without x := (ih hsorted).symm
      _ = (rs.foldl respond ((w.respond r).without x)).without x := by rw [respond_without h]
      _ = (rs.foldl respond (w.respond r)).without x := ih (sorted_respond h r)

theorem send_without {net : Network} {destination : Endpoint} {payload : Bytes} (h : w.Sorted) :
    ((w.without x).send net y destination payload).1 = (w.send net y destination payload).1 ∧
      ((w.without x).send net y destination payload).2.without x =
        (w.send net y destination payload).2.without x := by
  unfold send
  dsimp only
  rw [show (w.without x).log = w.log from rfl, show (w.without x).clock = w.clock from rfl]
  split
  · exact ⟨rfl, without_without x { w with log := _ :: w.log }⟩
  · exact ⟨rfl, foldl_respond_without (w := { w with log := _ :: w.log }) h _⟩

/-! ## Actions -/

variable {net : Network}

/-- No action depends on what is on its way to an address that no socket is bound to. -/
theorem perform_without (net : Network) (h : w.Sorted) (hx : x ∉ w.addresses) (action : Action) :
    ((w.without x).perform net action).1 = (w.perform net action).1 ∧
      ((w.without x).perform net action).2.without x = (w.perform net action).2.without x := by
  cases action with
  | bind address =>
    simp only [perform, bindSocket]
    rw [show (w.without x).inUse = w.inUse from rfl]
    split
    · exact ⟨rfl, without_without x w⟩
    · exact ⟨rfl, without_without x { w with sockets := _ }⟩
  | close socket => exact ⟨rfl, without_without x (w.closeSocket socket)⟩
  | send socket destination payload => exact send_without h
  | await socket timeoutMs filter =>
    have hawait : (w.without x).perform net (.await socket timeoutMs filter) =
        ((w.perform net (.await socket timeoutMs filter)).1,
          (w.perform net (.await socket timeoutMs filter)).2.without x) := await_without hx h
    rw [hawait]
    exact ⟨rfl, without_without x _⟩
  | _ => exact ⟨rfl, without_without x w⟩

/-- Only binding and closing change which sockets are open. -/
theorem addresses_perform {action : Action} (hkeeps : action.KeepsSockets) :
    (w.perform net action).2.addresses = w.addresses := by
  cases action with
  | bind address => cases hkeeps
  | close socket => cases hkeeps
  | send socket destination payload => exact addresses_send rfl
  | await socket timeoutMs filter => exact (await_sound rfl).1.addresses
  | _ => rfl

end World

/-- At some moment, whatever arrives at an address is lost: it reaches no socket, and being on its way makes
no difference. -/
structure Moment.Ignores (net : Network) (x : Endpoint) (m : Moment) : Prop where
  lost : ∀ d, m.world.deliver x d = m.world
  answer : ((m.world.without x).perform net m.action).1 = m.answer
  world : ((m.world.without x).perform net m.action).2.without x =
    (m.world.perform net m.action).2.without x

/-- At some moments just these sockets are open, and what arrives at other addresses is lost. -/
def OnlyOpen (net : Network) (xs : List SocketAddress) (h : List Moment) : Prop :=
  ∀ m ∈ h, m.world.addresses = xs ∧ ∀ x ∉ xs, m.Ignores net x

namespace OnlyOpen

variable {net : Network} {xs : List SocketAddress} {h h' : List Moment} {m : Moment}

theorem nil : OnlyOpen net xs [] := fun _ hm => absurd hm List.not_mem_nil

theorem append (ho : OnlyOpen net xs h) (ho' : OnlyOpen net xs h') : OnlyOpen net xs (h ++ h') :=
  fun m hm => (List.mem_append.mp hm).elim (ho m) (ho' m)

theorem cons (hm : OnlyOpen net xs [m]) (ho : OnlyOpen net xs h) : OnlyOpen net xs (m :: h) :=
  hm.append ho

theorem single {w w' : World} {action : Action} {answer : action.Answer} (hsorted : w.Sorted)
    (taken : w.perform net action = (answer, w')) : OnlyOpen net w.addresses [⟨w, action, answer⟩] := by
  intro m hm
  obtain rfl := List.mem_singleton.mp hm
  refine ⟨rfl, fun x hx => ?_⟩
  obtain ⟨hanswer, hworld⟩ := World.perform_without net hsorted hx action
  exact ⟨World.deliver_of_not_mem hx, hanswer.trans (congrArg Prod.fst taken), hworld⟩

end OnlyOpen

namespace Program

variable {α : Type} {p : Program α} {net : Network} {w w' : World} {h : List Moment} {a : α}

/-- A run that neither binds nor closes sockets has the same ones throughout. -/
theorem Runs.onlyOpen (hr : p.Runs net w h a w') (hsorted : w.Sorted)
    (hkeeps : ∀ m ∈ h, m.action.KeepsSockets) :
    OnlyOpen net w.addresses h ∧ w'.addresses = w.addresses := by
  induction hr with
  | done => exact ⟨.nil, rfl⟩
  | @act action next w w' h a rest ih =>
    have hfirst : (w.perform net action).2.addresses = w.addresses :=
      World.addresses_perform (hkeeps _ List.mem_cons_self)
    have hlater : ∀ m ∈ h, m.action.KeepsSockets := fun m hm => hkeeps m (List.mem_cons_of_mem _ hm)
    obtain ⟨hopen, hend⟩ := ih ((World.perform_keeps w action).2 hsorted) hlater
    rw [hfirst] at hopen hend
    exact ⟨.cons (.single hsorted rfl) hopen, hend⟩

end Program

end NatBehaviour.Network
