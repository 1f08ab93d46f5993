import Mathlib.Data.List.Forall2
import NatBehaviour.Proofs.Network.Delivery

/-!
Two worlds, of which the second one receives some datagrams more than the first: the noise. Whatever a
client does in both, they stay alike but for the noise that has not been read, as long as the client
passes over what it reads of it. A wait goes on after such a datagram and ends when it would have ended
without it.
-/

namespace NatBehaviour.Network

open NatBehaviour.Json (Bytes)
open NatBehaviour.Net (Endpoint)
open NatBehaviour.Probe (Datagram Filter Reading)
open NatBehaviour.Wire (Message)

/-! ## Lists with additions -/

/-- A list, and the same list with more elements at any places. -/
inductive Padded {α : Type} (extra : α → Prop) : List α → List α → Prop
  | nil : Padded extra [] []
  | keep (a : α) {as bs : List α} (rest : Padded extra as bs) : Padded extra (a :: as) (a :: bs)
  | add {b : α} {as bs : List α} (new : extra b) (rest : Padded extra as bs) :
      Padded extra as (b :: bs)

namespace Padded

variable {α : Type} {extra : α → Prop} {as bs : List α}

theorem refl (as : List α) : Padded extra as as := by
  induction as with
  | nil => exact .nil
  | cons a as ih => exact .keep a ih

theorem sublist (h : Padded extra as bs) : as.Sublist bs := by
  induction h with
  | nil => exact .slnil
  | keep a _ ih => exact ih.cons_cons a
  | add _ _ ih => exact ih.cons _

theorem append_keep (h : Padded extra as bs) (a : α) : Padded extra (as ++ [a]) (bs ++ [a]) := by
  induction h with
  | nil => exact .refl [a]
  | keep b _ ih => exact .keep b ih
  | add new _ ih => exact .add new ih

theorem append_add (h : Padded extra as bs) {b : α} (new : extra b) :
    Padded extra as (bs ++ [b]) := by
  induction h with
  | nil => exact .add new .nil
  | keep a _ ih => exact .keep a ih
  | add new' _ ih => exact .add new' ih

end Padded

variable {noise : Datagram → Prop}

/-- Sockets that are bound to the same address, the second one with noise in its inbox. -/
structure Socket.Noisy (noise : Datagram → Prop) (s s' : Socket) : Prop where
  address : s'.address = s.address
  inbox : Padded noise s.inbox s'.inbox

namespace World

/-- Worlds that are alike but for noise in the inboxes, and that may differ in the time and in what is on
its way. -/
structure Alike (noise : Datagram → Prop) (w w' : World) : Prop where
  taken : w'.taken = w.taken
  log : w'.log = w.log
  sockets : List.Forall₂ (Socket.Noisy noise) w.sockets w'.sockets

/-- Worlds that are alike but for noise, which has arrived or is on its way. -/
structure Noisy (noise : Datagram → Prop) (w w' : World) : Prop extends Alike noise w w' where
  clock : w'.clock = w.clock
  arrivals : Padded (noise ·.datagram) w.arrivals w'.arrivals
  sorted : w'.Sorted

theorem noisy_start (noise : Datagram → Prop) (taken : List Endpoint) :
    Noisy noise (.start taken) (.start taken) where
  taken := rfl
  log := rfl
  sockets := .nil
  clock := rfl
  arrivals := .nil
  sorted := .nil

variable {w w' : World} {x : Endpoint} {d : Datagram}

/-! ## Inboxes -/

namespace Alike

/-- Changes that keep the sockets alike, one by one, keep the worlds alike. -/
theorem map (h : Alike noise w w') {f g : Socket → Socket}
    (hfg : ∀ s s', Socket.Noisy noise s s' → Socket.Noisy noise (f s) (g s')) :
    Alike noise { w with sockets := w.sockets.map f } { w' with sockets := w'.sockets.map g } where
  taken := h.taken
  log := h.log
  sockets := by
    rw [List.forall₂_map_left_iff, List.forall₂_map_right_iff]
    exact h.sockets.imp hfg

theorem deliver (h : Alike noise w w') (y : Endpoint) (d : Datagram) :
    Alike noise (w.deliver y d) (w'.deliver y d) := by
  refine h.map ?_
  intro s s' hs
  rw [hs.address]
  split
  · exact ⟨rfl, hs.inbox.append_keep d⟩
  · exact hs

theorem setInbox (h : Alike noise w w') (y : Endpoint) {ds ds' : List Datagram}
    (hd : Padded noise ds ds') : Alike noise (w.setInbox y ds) (w'.setInbox y ds') := by
  refine h.map ?_
  intro s s' hs
  rw [hs.address]
  split
  · exact ⟨rfl, hd⟩
  · exact hs

theorem map_right (h : Alike noise w w') {g : Socket → Socket}
    (hg : ∀ s s', s ∈ w.sockets → Socket.Noisy noise s s' → Socket.Noisy noise s (g s')) :
    Alike noise w { w' with sockets := w'.sockets.map g } where
  taken := h.taken
  log := h.log
  sockets := by
    rw [List.forall₂_map_right_iff, List.forall₂_iff_get]
    obtain ⟨hlength, hget⟩ := List.forall₂_iff_get.mp h.sockets
    exact ⟨hlength, fun i hi hi' => hg _ _ (List.get_mem _ _) (hget i hi hi')⟩

theorem deliver_noise (h : Alike noise w w') (y : Endpoint) (hd : noise d) :
    Alike noise w (w'.deliver y d) := by
  refine h.map_right ?_
  intro s s' _ hs
  split
  · exact ⟨hs.address, hs.inbox.append_add hd⟩
  · exact hs

theorem arrive (h : Alike noise w w') (a : Arrival) (later later' : List Arrival) :
    Alike noise (w.arrive a later) (w'.arrive a later') := by
  have hmoved : Alike noise { w with clock := max w.clock a.due, arrivals := later }
      { w' with clock := max w'.clock a.due, arrivals := later' } := ⟨h.taken, h.log, h.sockets⟩
  exact hmoved.deliver a.destination a.datagram

theorem arrive_noise (h : Alike noise w w') {a : Arrival} (ha : noise a.datagram)
    (later' : List Arrival) : Alike noise w (w'.arrive a later') := by
  have hmoved : Alike noise w { w' with clock := max w'.clock a.due, arrivals := later' } :=
    ⟨h.taken, h.log, h.sockets⟩
  exact hmoved.deliver_noise a.destination ha

theorem inbox (h : Alike noise w w') (y : Endpoint) : Padded noise (w.inbox y) (w'.inbox y) := by
  have hsockets := h.sockets
  unfold World.inbox
  generalize w.sockets = ss, w'.sockets = ss' at hsockets
  induction hsockets with
  | nil => exact .nil
  | @cons s s' _ _ hs _ ih =>
    rw [List.find?_cons, List.find?_cons, hs.address]
    split
    · exact hs.inbox
    · exact ih

theorem addresses (h : Alike noise w w') : w'.addresses = w.addresses := by
  have hsockets := h.sockets
  unfold World.addresses
  generalize w.sockets = ss, w'.sockets = ss' at hsockets
  induction hsockets with
  | nil => rfl
  | cons hs _ ih => rw [List.map_cons, List.map_cons, hs.address, ih]

end Alike

/-- Nothing is in the inboxes of the sockets at an address. -/
def Emptied (x : Endpoint) (w : World) : Prop := ∀ s ∈ w.sockets, s.address = x → s.inbox = []

theorem emptied_setInbox (w : World) (x : Endpoint) : Emptied x (w.setInbox x []) := by
  intro s hs haddress
  obtain ⟨s₀, -, rfl⟩ := List.mem_map.mp hs
  split
  · rfl
  · rename_i hne
    rw [if_neg hne] at haddress
    exact absurd haddress hne

theorem Emptied.inbox (h : Emptied x w) : w.inbox x = [] := by
  rw [List.eq_nil_iff_forall_not_mem]
  intro d hd
  obtain ⟨s, hs, haddress, hmem⟩ := mem_inbox hd
  rw [h s hs haddress] at hmem
  cases hmem

/-- What has been read of the noise alone leaves no trace. -/
theorem Alike.setInbox_nil (h : Alike noise w w') (hempty : Emptied x w) :
    Alike noise w (w'.setInbox x []) := by
  refine h.map_right ?_
  intro s s' hmem hs
  split
  · rename_i haddress
    have hnil : s.inbox = [] := hempty s hmem (hs.address.symm.trans haddress)
    exact ⟨hs.address, by rw [hnil]; exact .nil⟩
  · exact hs

/-! ## What is on its way -/

section Arrivals

variable {as bs : List Arrival}

theorem insertArrival_of_lt {a : Arrival} (h : ∀ b ∈ as, a.due < b.due) :
    insertArrival a as = a :: as := by
  cases as with
  | nil => rfl
  | cons b bs => rw [insertArrival, if_neg (Nat.not_le_of_lt (h b List.mem_cons_self))]

theorem padded_insertArrival {extra : Arrival → Prop} (h : Padded extra as bs)
    (hsorted : bs.Pairwise (·.due ≤ ·.due)) (a : Arrival) :
    Padded extra (insertArrival a as) (insertArrival a bs) := by
  induction h with
  | nil => exact .refl [a]
  | keep b rest ih =>
    have hlater := (List.pairwise_cons.mp hsorted).2
    unfold insertArrival
    split
    · exact .keep b (ih hlater)
    · exact .keep a (.keep b rest)
  | @add b as bs new rest ih =>
    obtain ⟨hfirst, hlater⟩ := List.pairwise_cons.mp hsorted
    by_cases hdue : b.due ≤ a.due
    · rw [insertArrival, if_pos hdue]
      exact .add new (ih hlater)
    -- Everything is due later than the new arrival, which comes first on both sides.
    · have has : ∀ c ∈ as, a.due < c.due := by
        intro c hc
        have hbc := hfirst c (rest.sublist.subset hc)
        omega
      rw [insertArrival, if_neg hdue, insertArrival_of_lt has]
      exact .keep a (.add new rest)

theorem padded_insertArrival_noise {extra : Arrival → Prop} (h : Padded extra as bs) {a : Arrival}
    (new : extra a) : Padded extra as (insertArrival a bs) := by
  induction h with
  | nil => exact .add new .nil
  | keep b rest ih =>
    unfold insertArrival
    split
    · exact .keep b ih
    · exact .add new (.keep b rest)
  | add new' rest ih =>
    unfold insertArrival
    split
    · exact .add new' ih
    · exact .add new (.add new' rest)

theorem flush_of_lt (h : ∀ a ∈ as, w.clock < a.due) : w.flush as = { w with arrivals := as } := by
  cases as with
  | nil => rfl
  | cons a later => rw [flush, if_neg (Nat.not_le_of_lt (h a List.mem_cons_self))]

theorem Alike.flush (h : Alike noise w w') (hclock : w'.clock = w.clock)
    (has : Padded (noise ·.datagram) as bs) (hsorted : bs.Pairwise (·.due ≤ ·.due)) :
    Noisy noise (w.flush as) (w'.flush bs) := by
  induction has generalizing w w' with
  | nil => exact ⟨⟨h.taken, h.log, h.sockets⟩, hclock, .nil, .nil⟩
  | keep a rest ih =>
    unfold World.flush
    rw [hclock]
    split
    · exact ih (h.deliver a.destination a.datagram) hclock (List.pairwise_cons.mp hsorted).2
    · exact ⟨⟨h.taken, h.log, h.sockets⟩, rfl, .keep a rest, hsorted⟩
  | @add b as bs new rest ih =>
    obtain ⟨hfirst, hlater⟩ := List.pairwise_cons.mp hsorted
    by_cases hdue : b.due ≤ w'.clock
    · rw [World.flush.eq_def w' (b :: bs)]
      dsimp only
      rw [if_pos hdue]
      exact ih (h.deliver_noise b.destination new) hclock hlater
    · have hlate : ∀ a ∈ as, w.clock < a.due := by
        intro a ha
        have hba := hfirst a (rest.sublist.subset ha)
        omega
      rw [flush_of_lt hlate, World.flush.eq_def w' (b :: bs)]
      dsimp only
      rw [if_neg hdue]
      exact ⟨⟨h.taken, h.log, h.sockets⟩, hclock, .add new rest, hsorted⟩

end Arrivals

namespace Noisy

theorem respond (h : Noisy noise w w') (r : Response) : Noisy noise (w.respond r) (w'.respond r) := by
  unfold World.respond
  split
  · exact ⟨h.toAlike.deliver r.destination r.datagram, h.clock, h.arrivals, h.sorted⟩
  · rw [h.clock]
    exact ⟨⟨h.taken, h.log, h.sockets⟩, rfl, padded_insertArrival h.arrivals h.sorted _,
      sorted_insertArrival h.sorted⟩

theorem respond_noise (h : Noisy noise w w') {r : Response} (hr : noise r.datagram) :
    Noisy noise w (w'.respond r) := by
  unfold World.respond
  split
  · exact ⟨h.toAlike.deliver_noise r.destination hr, h.clock, h.arrivals, h.sorted⟩
  · exact ⟨⟨h.taken, h.log, h.sockets⟩, h.clock, padded_insertArrival_noise h.arrivals hr,
      sorted_insertArrival h.sorted⟩

theorem foldl_respond {rs rs' : List Response} (h : Noisy noise w w')
    (hrs : Padded (noise ·.datagram) rs rs') :
    Noisy noise (rs.foldl World.respond w) (rs'.foldl World.respond w') := by
  induction hrs generalizing w w' with
  | nil => exact h
  | keep r _ ih => exact ih (h.respond r)
  | add new _ ih => exact ih (h.respond_noise new)

end Noisy

/-! ## What a client hears -/

/-- Of two waits, only the second one may have seen something that does not decode, and only if there is
mud in the noise. -/
def Murkier (mud : Prop) (seen seen' : Bool) : Prop :=
  (seen = true → seen' = true) ∧ (seen' = true → seen = true ∨ mud)

theorem Murkier.refl (mud : Prop) (seen : Bool) : Murkier mud seen seen := ⟨id, .inl⟩

/-- A filter passes over noise: it ignores it, or finds that it does not decode. The latter is mud. -/
def PassesOver (noise : Datagram → Prop) (mud : Prop) (f : Filter) : Prop :=
  ∀ d, noise d → f.judge d = .ignored ∨ f.judge d = .undecodable ∧ mud

/-- Two scans that find the same reply, or none. -/
inductive SameScan (noise : Datagram → Prop) (mud : Prop) : Filter.Scan → Filter.Scan → Prop
  | found (m : Message) {rest rest' : List Datagram} (h : Padded noise rest rest') :
      SameScan noise mud (.found m rest) (.found m rest')
  | exhausted {seen seen' : Bool} (h : Murkier mud seen seen') :
      SameScan noise mud (.exhausted seen) (.exhausted seen')

variable {mud : Prop} {f : Filter}

theorem sameScan (hf : PassesOver noise mud f) {ds ds' : List Datagram} {seen seen' : Bool}
    (hseen : Murkier mud seen seen') (h : Padded noise ds ds') :
    SameScan noise mud (f.scan seen ds) (f.scan seen' ds') := by
  induction h generalizing seen seen' with
  | nil => exact .exhausted hseen
  | keep d rest ih =>
    unfold Filter.scan
    split
    · exact ih hseen
    · exact ih (.refl mud true)
    · exact .found _ rest
  | @add d ds ds' new rest ih =>
    rw [Filter.scan.eq_def f seen' (d :: ds')]
    dsimp only
    rcases hf d new with hj | ⟨hj, hmud⟩
    · rw [hj]
      exact ih hseen
    · rw [hj]
      exact ih ⟨fun _ => rfl, fun _ => .inr hmud⟩

theorem Alike.check (h : Alike noise w w') (hf : PassesOver noise mud f) {seen seen' : Bool}
    (hseen : Murkier mud seen seen') (x : Endpoint) :
    SameScan noise mud (w.check x f seen) (w'.check x f seen') :=
  sameScan hf hseen (h.inbox x)

/-- Two hearings of the same reply, or of none. After silence the noise may have let more time pass, but
not more than the wait takes. -/
inductive SameHearing (noise : Datagram → Prop) (mud : Prop) (stop : Nat) : Hearing → Hearing → Prop
  | reply (m : Message) {w w' : World} (h : Noisy noise w w') :
      SameHearing noise mud stop (.reply m w) (.reply m w')
  | silence {seen seen' : Bool} {w w' : World} (hseen : Murkier mud seen seen')
      (h : Alike noise w w') (hclock : max w'.clock stop = max w.clock stop)
      (harrivals : Padded (noise ·.datagram) w.arrivals w'.arrivals) (hsorted : w'.Sorted) :
      SameHearing noise mud stop (.silence seen w) (.silence seen' w')

theorem hearArrivals_of_le {as : List Arrival} {stop : Nat} (h : ∀ a ∈ as, stop ≤ a.due) (seen : Bool) :
    hearArrivals x f stop as seen w = .silence seen { w with arrivals := as } := by
  cases as with
  | nil => rfl
  | cons a later => rw [hearArrivals, if_neg (Nat.not_lt_of_le (h a List.mem_cons_self))]

/-- The clock of the noisy world may be ahead between two arrivals, but never beyond the next one that
both worlds have in common. -/
theorem sameHearing_hearArrivals (hf : PassesOver noise mud f) {as as' : List Arrival} {stop : Nat}
    {seen seen' : Bool} (has : Padded (noise ·.datagram) as as')
    (hsorted : as'.Pairwise (·.due ≤ ·.due)) (h : Alike noise w w') (hempty : Emptied x w)
    (hseen : Murkier mud seen seen') (hstop : max w'.clock stop = max w.clock stop)
    (hahead : ∀ a ∈ as, max w'.clock a.due = max w.clock a.due) :
    SameHearing noise mud stop (hearArrivals x f stop as seen w)
      (hearArrivals x f stop as' seen' w') := by
  induction has generalizing w w' seen seen' with
  | nil => exact .silence hseen ⟨h.taken, h.log, h.sockets⟩ hstop .nil .nil
  | @keep a later later' rest ih =>
    obtain ⟨-, hlater⟩ := List.pairwise_cons.mp hsorted
    by_cases hdue : a.due < stop
    · have hclock : (w'.arrive a later').clock = (w.arrive a later).clock :=
        hahead a List.mem_cons_self
      have harrive := h.arrive a later later'
      have hscan := harrive.check hf hseen x
      rw [hearArrivals, if_pos hdue, hearArrivals, if_pos hdue]
      dsimp only
      generalize (w.arrive a later).check x f seen = r, (w'.arrive a later').check x f seen' = r'
        at hscan
      cases hscan with
      | found m hrest => exact .reply m ((harrive.setInbox x hrest).flush hclock rest hlater)
      | exhausted hseen₁ =>
        refine ih hlater (harrive.setInbox x .nil) (emptied_setInbox _ x) hseen₁ ?_ ?_
        · exact congrArg (max · stop) hclock
        · exact fun b _ => congrArg (max · b.due) hclock
    · rw [hearArrivals, if_neg hdue, hearArrivals, if_neg hdue]
      exact .silence hseen ⟨h.taken, h.log, h.sockets⟩ hstop (.keep a rest) hsorted
  | @add b as later' new rest ih =>
    obtain ⟨hfirst, hlater⟩ := List.pairwise_cons.mp hsorted
    by_cases hdue : b.due < stop
    · have harrive := h.arrive_noise new later'
      -- The inbox held nothing but what has just arrived.
      have hscan := harrive.check hf hseen x
      rw [World.check, hempty.inbox, Filter.scan] at hscan
      rw [hearArrivals.eq_def x f stop (b :: later')]
      dsimp only
      rw [if_pos hdue]
      cases hscan' : (w'.arrive b later').check x f seen' with
      | found m hrest =>
        rw [hscan'] at hscan
        cases hscan
      | exhausted seen₁ =>
        rw [hscan'] at hscan
        cases hscan with
        | exhausted hseen₁ =>
          refine ih hlater (harrive.setInbox_nil hempty) hempty hseen₁ ?_ ?_
          · change max (max w'.clock b.due) stop = max w.clock stop
            omega
          · intro a ha
            have hba := hfirst a (rest.sublist.subset ha)
            have ha' := hahead a ha
            change max (max w'.clock b.due) a.due = max w.clock a.due
            omega
    · have hlate : ∀ a ∈ as, stop ≤ a.due := by
        intro a ha
        have hba := hfirst a (rest.sublist.subset ha)
        omega
      rw [hearArrivals_of_le hlate, hearArrivals.eq_def x f stop (b :: later')]
      dsimp only
      rw [if_neg hdue]
      exact .silence hseen ⟨h.taken, h.log, h.sockets⟩ hstop (.add new rest) hsorted

namespace Noisy

theorem hear (h : Noisy noise w w') (hf : PassesOver noise mud f) (x : Endpoint) (stop : Nat) :
    SameHearing noise mud stop (w.hear x f stop) (w'.hear x f stop) := by
  have hscan := h.toAlike.check hf (.refl mud false) x
  unfold World.hear
  generalize w.check x f false = r, w'.check x f false = r' at hscan
  cases hscan with
  | found m hrest =>
    exact .reply m ⟨h.toAlike.setInbox x hrest, h.clock, h.arrivals, h.sorted⟩
  | exhausted hseen =>
    refine sameHearing_hearArrivals hf h.arrivals h.sorted (h.toAlike.setInbox x .nil)
      (emptied_setInbox w x) hseen ?_ ?_
    · exact congrArg (max · stop) h.clock
    · exact fun a _ => congrArg (max · a.due) h.clock

end Noisy

/-- Readings of two waits: the second one may have seen mud where the first one saw nothing. -/
def SameReading (mud : Prop) (r r' : Reading) : Prop :=
  r' = r ∨ r = .nothing ∧ r' = .onlyUndecodable ∧ mud

theorem sameReading_ofSilence {seen seen' : Bool} (h : Murkier mud seen seen') :
    SameReading mud (.ofSilence seen) (.ofSilence seen') := by
  cases seen with
  | true =>
    rw [h.1 rfl]
    exact .inl rfl
  | false =>
    cases seen' with
    | false => exact .inl rfl
    | true => exact .inr ⟨rfl, rfl, (h.2 rfl).resolve_left Bool.false_ne_true⟩

theorem Noisy.awaitUntil (h : Noisy noise w w') (hf : PassesOver noise mud f) (x : Endpoint)
    (stop : Nat) :
    SameReading mud (w.awaitUntil x f stop).1 (w'.awaitUntil x f stop).1 ∧
      Noisy noise (w.awaitUntil x f stop).2 (w'.awaitUntil x f stop).2 := by
  have hheard := h.hear hf x stop
  unfold World.awaitUntil
  generalize w.hear x f stop = r, w'.hear x f stop = r' at hheard
  cases hheard with
  | reply m h => exact ⟨.inl rfl, h⟩
  | silence hseen h hclock harrivals hsorted =>
    exact ⟨sameReading_ofSilence hseen,
      Alike.flush ⟨h.taken, h.log, h.sockets⟩ hclock harrivals hsorted⟩

end World

/-! ## Actions -/

/-- Networks that behave alike, but that the second one delivers noise in addition to what the first one
delivers. -/
structure Noisier (noise : Datagram → Prop) (net net' : Network) : Prop where
  resolve : net'.resolve = net.resolve
  bind : net'.bind = net.bind
  route : net'.route = net.route
  carry : ∀ log t, Option.Rel (Padded (noise ·.datagram)) (net.carry log t) (net'.carry log t)
  failure : net'.failure = net.failure

/-- Answers to an action in two networks, of which the second one is noisier. -/
def Action.SameAnswer (net : Network) (mud : Prop) : (action : Action) → action.Answer → action.Answer →
    Prop
  | .resolve host port, r, r' => r = net.resolve host port ∧ r' = r
  | .await _ _ _, r, r' => World.SameReading mud r r'
  | .bind _, r, r' | .close _, r, r' | .route _ _, r, r' | .send _ _ _, r, r' | .clock, r, r' => r' = r

/-- The filters of an action pass over noise. -/
def Action.PassesOver (noise : Datagram → Prop) (mud : Prop) : Action → Prop
  | .await _ _ f => World.PassesOver noise mud f
  | _ => True

namespace World.Noisy

variable {net net' : Network} {w w' : World} {mud : Prop}

theorem bindSocket (h : Noisy noise w w') (hnet : Noisier noise net net') (address : Endpoint) :
    (w'.bindSocket net' address).1 = (w.bindSocket net address).1 ∧
      Noisy noise (w.bindSocket net address).2 (w'.bindSocket net' address).2 := by
  have hinUse : w'.inUse = w.inUse :=
    congrArg₂ (· ++ ·) h.taken h.toAlike.addresses
  unfold World.bindSocket
  rw [hinUse, hnet.bind]
  split
  · exact ⟨rfl, h⟩
  · rename_i bound _
    refine ⟨rfl, ⟨h.taken, h.log, ?_⟩, h.clock, h.arrivals, h.sorted⟩
    exact List.rel_append h.sockets (.cons ⟨rfl, .nil⟩ .nil)

theorem closeSocket (h : Noisy noise w w') (socket : SocketAddress) :
    Noisy noise (w.closeSocket socket) (w'.closeSocket socket) := by
  refine ⟨⟨h.taken, h.log, ?_⟩, h.clock, h.arrivals, h.sorted⟩
  have hsockets := h.sockets
  unfold World.closeSocket
  dsimp only
  generalize w.sockets = ss, w'.sockets = ss' at hsockets
  induction hsockets with
  | nil => exact .nil
  | cons hs rest ih =>
    rw [List.eraseP_cons, List.eraseP_cons, hs.address]
    cases decide (_ = socket) with
    | true => exact rest
    | false => exact .cons hs ih

theorem send (h : Noisy noise w w') (hnet : Noisier noise net net') (x y : Endpoint)
    (payload : Bytes) :
    (w'.send net' x y payload).1 = (w.send net x y payload).1 ∧
      Noisy noise (w.send net x y payload).2 (w'.send net' x y payload).2 := by
  have hcarry := hnet.carry w.log ⟨w.clock, x, y, payload⟩
  unfold World.send
  rw [h.clock, h.log]
  dsimp only
  generalize net.carry w.log ⟨w.clock, x, y, payload⟩ = r,
    net'.carry w.log ⟨w.clock, x, y, payload⟩ = r' at hcarry
  have hlogged (sent : Bool) : Noisy noise
      { w with log := (⟨w.clock, x, y, payload⟩, sent) :: w.log }
      { w' with clock := w.clock, log := (⟨w.clock, x, y, payload⟩, sent) :: w.log } :=
    ⟨⟨h.taken, rfl, h.sockets⟩, rfl, h.arrivals, h.sorted⟩
  cases hcarry with
  | none => exact ⟨rfl, hlogged false⟩
  | some hrs => exact ⟨rfl, (hlogged true).foldl_respond hrs⟩

theorem await (h : Noisy noise w w') (hnet : Noisier noise net net') {f : Filter}
    (hf : World.PassesOver noise mud f) (x : Endpoint) (timeoutMs : Nat) :
    SameReading mud (w.await net x timeoutMs f).1 (w'.await net' x timeoutMs f).1 ∧
      Noisy noise (w.await net x timeoutMs f).2 (w'.await net' x timeoutMs f).2 := by
  have hpatience : net'.patience w'.log x timeoutMs = net.patience w.log x timeoutMs := by
    rw [patience, patience, hnet.failure, h.log]
  unfold World.await
  rw [hpatience, h.clock]
  cases net.patience w.log x timeoutMs with
  | none => exact ⟨.inl rfl, h⟩
  | some ms => exact h.awaitUntil hf x (w.clock + ms)

theorem perform (h : Noisy noise w w') (hnet : Noisier noise net net') {action : Action}
    (hf : action.PassesOver noise mud) :
    action.SameAnswer net mud (w.perform net action).1 (w'.perform net' action).1 ∧
      Noisy noise (w.perform net action).2 (w'.perform net' action).2 := by
  cases action with
  | resolve host port => exact ⟨⟨rfl, congrFun₂ hnet.resolve host port⟩, h⟩
  | bind address => exact h.bindSocket hnet address
  | close socket => exact ⟨rfl, h.closeSocket socket⟩
  | route socket destination => exact ⟨congrFun hnet.route destination, h⟩
  | send socket destination payload => exact h.send hnet socket destination payload
  | await socket timeoutMs f => exact h.await hnet hf socket timeoutMs
  | clock => exact ⟨h.clock, h⟩

end World.Noisy

end NatBehaviour.Network
