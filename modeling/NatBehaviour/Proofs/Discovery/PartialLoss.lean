import Mathlib.Algebra.GroupWithZero.Nat
import Mathlib.Algebra.Order.BigOperators.Group.List
import Mathlib.Algebra.Order.Group.Nat
import NatBehaviour.Proofs.Discovery.Batches
import NatBehaviour.Proofs.Network.Backlog

/-!
How many replies a discovery needs to take a host for public. Replies carry nothing that tells to which ping
they belong, so all that can be said is how many there are: the first step reads a reply in every attempt only
if at least that many copies of replies have arrived by its end. In a network that copies nothing this means
that every single ping has been answered; in one that does, copies can make up for replies that were lost.
-/

namespace NatBehaviour.Discovery

open NatBehaviour.Net (Ip Endpoint)
open NatBehaviour.Network (Host Moment Program Response SocketAddress Transmission World addressed
  transmissions)
open NatBehaviour.Probe (Batch Outcome)
open NatBehaviour.Responder (answer loopbackListeners narrowHost relay relayed)
open NatBehaviour.Wire (Listeners Message Role)

/-! ## Networks that lose and copy -/

/-- The responses to a transmission that is seen to come from some address: each reply of the responder, as
often and as late as said for its listener. -/
def posted (server : Listeners Endpoint) (source : Endpoint) (delays : Role → List Nat) (t : Transmission) :
    List Response :=
  (answer .primary source t.payload).flatMap fun s =>
    (delays s.role).map fun delay => ⟨delay, t.source, ⟨server.get s.role, s.payload⟩⟩

/-- A network between a client and a responder. What becomes of each transmission is told by the delays after
which copies of a reply arrive: there are none if the request or the reply is lost, and several if one of the
two is copied. Nothing is said about the order of replies with the same delay, nor about transmissions to
anybody but the primary listener. -/
def Posts (net : Network) (server : Listeners Endpoint)
    (seen : List (Transmission × Bool) → Transmission → Endpoint)
    (fate : List (Transmission × Bool) → Transmission → Role → List Nat) : Prop :=
  ∀ log t rs, t.destination = server.primary → net.carry log t = some rs →
    rs.Perm (posted server (seen log t) (fate log t) t)

/-- How many copies of the primary listener's reply to each transmission have arrived by some time, given the
transmissions, last one first. -/
def copies (fate : List (Transmission × Bool) → Transmission → Role → List Nat) (time : Nat) :
    List (Transmission × Bool) → List Nat
  | [] => []
  | (t, sent) :: log =>
    (if sent then (fate log t .primary).countP fun delay => t.time + delay ≤ time else 0) ::
      copies fate time log

theorem flatMap_filter {α β : Type} (p : α → Bool) (f : α → List β) (xs : List α) :
    (xs.filter p).flatMap f = xs.flatMap fun a => if p a then f a else [] := by
  induction xs with
  | nil => rfl
  | cons a xs ih =>
    simp only [List.filter_cons, List.flatMap_cons, ← ih]
    split <;> rfl

/-- Every reply that passes has the same delays. -/
def relayFate (passes : List (Transmission × Bool) → Transmission → Role → Bool) (delays : List Nat)
    (log : List (Transmission × Bool)) (t : Transmission) (role : Role) : List Nat :=
  if passes log t role then delays else []

theorem relay_posts {host : Host} {server : Listeners Endpoint} {seen : Endpoint → Endpoint}
    {passes : List (Transmission × Bool) → Transmission → Role → Bool} {delays : List Nat} :
    Posts (relay host server seen passes delays) server (fun _ t => seen t.source)
      (relayFate passes delays) := by
  intro log t rs hdest hcarry
  simp only [relay, Host.network, hdest, ↓reduceIte] at hcarry
  split at hcarry
  · obtain rfl := Option.some.inj hcarry
    rw [relayed, posted, flatMap_filter]
    refine .of_eq (List.flatMap_congr fun s _ => ?_)
    rw [relayFate]
    split <;> rfl
  · cases hcarry

variable {net : Network} {server : Listeners Endpoint}
  {seen : List (Transmission × Bool) → Transmission → Endpoint}
  {fate : List (Transmission × Bool) → Transmission → Role → List Nat} {time : Nat}

/-- A ping is answered by the primary listener only. -/
theorem posted_ping {source : Endpoint} {delays : Role → List Nat} {t : Transmission}
    (hpayload : t.payload = (Message.request .ping).encode) :
    posted server source delays t = (delays .primary).map fun delay =>
      ⟨delay, t.source, ⟨server.primary, (Message.reply .ping source).encode⟩⟩ := by
  rw [posted, hpayload, Responder.answer_request]
  exact List.append_nil _

theorem timely_ping (hnet : Posts net server seen fate) {log : List (Transmission × Bool)} {t : Transmission}
    {rs : List Response} (hdest : t.destination = server.primary)
    (hpayload : t.payload = (Message.request .ping).encode) (hcarry : net.carry log t = some rs) :
    World.timely t.source t.time time rs =
      (fate log t .primary).countP fun delay => t.time + delay ≤ time := by
  rw [World.timely, (hnet log t rs hdest hcarry).countP_eq, posted_ping hpayload, List.countP_map]
  simp [Function.comp_def]

theorem length_copies (fate : List (Transmission × Bool) → Transmission → Role → List Nat) (time : Nat)
    (log : List (Transmission × Bool)) : (copies fate time log).length = log.length := by
  induction log with
  | nil => rfl
  | cons e log ih => rw [copies, List.length_cons, ih, List.length_cons]

/-- Where nothing is copied, there is at most one copy of a reply. -/
theorem copies_le_one (hfate : ∀ log t role, (fate log t role).length ≤ 1)
    {log : List (Transmission × Bool)} : ∀ k ∈ copies fate time log, k ≤ 1 := by
  induction log with
  | nil => nofun
  | cons e log ih =>
    intro k hk
    rcases List.mem_cons.mp hk with rfl | hk
    · split
      · exact Nat.le_trans List.countP_le_length (hfate log e.1 .primary)
      · exact Nat.zero_le _
    · exact ih k hk

theorem sum_lt_length {ks : List Nat} (hle : ∀ k ∈ ks, k ≤ 1) (hzero : 0 ∈ ks) : ks.sum < ks.length := by
  obtain ⟨before, after, rfl⟩ := List.append_of_mem hzero
  have hbefore : before.sum ≤ before.length * 1 :=
    List.sum_le_card_nsmul before 1 fun k hk => hle k (List.mem_append_left _ hk)
  have hafter : after.sum ≤ after.length * 1 :=
    List.sum_le_card_nsmul after 1 fun k hk => hle k (List.mem_append_right _ (List.mem_cons_of_mem _ hk))
  simp only [List.sum_append, List.sum_cons, List.length_append, List.length_cons]
  omega

/-! ## Batches of pings -/

/-- What a socket has read, what it can still read by some time, and how many copies of replies arrive for it by
then: the first two do not grow by more than the last. -/
structure Balanced (fate : List (Transmission × Bool) → Transmission → Role → List Nat) (x : SocketAddress)
    (time : Nat) (w : World) (o : Outcome) (w' : World) (o' : Outcome) : Prop where
  clock : w.clock ≤ w'.clock
  balance : w'.clock ≤ time →
    w'.backlog x time + o'.observed.length + (copies fate time w.log).sum ≤
      w.backlog x time + o.observed.length + (copies fate time w'.log).sum

namespace Balanced

variable {x : SocketAddress} {w w' w'' : World} {o o' o'' : Outcome}

theorem refl (w : World) (o : Outcome) : Balanced fate x time w o w o :=
  ⟨Nat.le_refl _, fun _ => Nat.le_refl _⟩

theorem trans (h : Balanced fate x time w o w' o') (h' : Balanced fate x time w' o' w'' o'') :
    Balanced fate x time w o w'' o'' where
  clock := Nat.le_trans h.clock h'.clock
  balance := by
    intro htime
    have hfirst := h.balance (Nat.le_trans h'.clock htime)
    have hrest := h'.balance htime
    omega

end Balanced

section Batches

variable {b : Batch} {w w' : World} {h : List Moment} {o o' : Outcome}
  (hnet : Posts net server seen fate) (hdest : b.destination = server.primary)
  (hmessage : b.message = .request .ping)

include hnet hdest hmessage

theorem attempt_balanced (hr : (b.attempt o).Runs net w h o' w') :
    Balanced fate b.socket time w o w' o' := by
  rcases Batch.attempt_runs hr with ⟨hsend, -, rfl⟩ | ⟨w₁, r, hsend, hawait, -, rfl⟩
  · obtain ⟨-, rfl⟩ := World.send_false hsend
    refine ⟨Nat.le_refl _, fun _ => ?_⟩
    rw [copies, List.sum_cons, if_neg Bool.false_ne_true, Nat.zero_add]
    exact Nat.le_refl _
  obtain ⟨rs, hcarry, hresponded⟩ := World.send_true hsend
  obtain ⟨n, hspends, hreply⟩ : ∃ n, World.Spends b.socket time n w₁ w' ∧ ∀ m, r = .reply m → n = 1 :=
    World.spends_await hawait
  have hclock : w.clock ≤ w'.clock := Nat.le_trans (Nat.le_of_eq hresponded.clock.symm) hspends.clock
  refine ⟨hclock, fun htime => ?_⟩
  have hsent := World.backlog_send_le (x := b.socket) (Nat.le_trans hclock htime) hcarry
  rw [hsend, timely_ping hnet hdest (by rw [hmessage]) hcarry] at hsent
  have hread := hspends.backlog htime
  have hobserved : (b.count o r).observed.length ≤ o.observed.length + n := by
    rw [Batch.observed_count]
    cases r with
    | reply m => rw [List.length_append, hreply m rfl, List.length_singleton]
    | onlyUndecodable => exact Nat.le_add_right _ _
    | nothing => exact Nat.le_add_right _ _
  rw [(World.await_sound hawait).1.log, hresponded.log, copies, List.sum_cons, if_pos rfl]
  dsimp only at hsent ⊢
  omega

theorem attemptTimes_balanced {n : Nat} (hr : (b.attemptTimes n o).Runs net w h o' w') :
    Balanced fate b.socket time w o w' o' := by
  induction n generalizing o w h with
  | zero =>
    obtain ⟨-, rfl, rfl⟩ := Batch.attemptTimes_runs_zero hr
    exact .refl _ _
  | succ n ih =>
    obtain ⟨h₁, h₂, o₁, w₁, -, hfirst, hrest⟩ := Batch.attemptTimes_runs_succ hr
    exact (attempt_balanced hnet hdest hmessage hfirst).trans (ih hrest)

end Batches

variable {w w' : World} {h : List Moment}

/-- Whoever starts without anything to read and takes the path to the second step has had as many copies of
replies as there are attempts. -/
theorem Session.reachability_copies {s : Session} {r : Attempted Course}
    (hnet : Posts net s.server seen fate) (hpos : s.settings.maxAttempts ≠ 0)
    (hempty : ∀ d, ¬ w.Holds s.socket d) (hlog : w.log = []) (hr : s.reachability.Runs net w h r w') :
    ∃ pings after o w₁, h = pings ++ after ∧ (s.probe .ping .primary).Runs net w pings o w₁ ∧
      ∀ course, r = .ok course → .firewall ∈ course.findings.map (·.step) →
        s.settings.maxAttempts.toNat ≤ (copies fate w₁.clock (transmissions pings).reverse).sum := by
  obtain ⟨o, w₁, h₁, h₂, rfl, ho, hpath⟩ := reachability_runs hr
  refine ⟨h₁, h₂, o, w₁, rfl, ho, ?_⟩
  intro course hcourse hfirewall
  subst hcourse
  rcases hpath with ⟨-, -, -, hc⟩ | ⟨-, hmatched, -⟩ | ⟨-, -, q, hq, hc⟩
  · cases hc
    cases List.mem_singleton.mp hfirewall
  · have hall := (probe_allMatched_iff ho hpos).mp hmatched
    have hlength : o.observed.length = s.settings.maxAttempts.toNat := by
      rw [hall, List.length_replicate]
    have hbalanced : Balanced fate s.socket w₁.clock w (.start s.settings.maxAttempts) w₁ o :=
      attemptTimes_balanced hnet rfl rfl ho
    have hbalance := hbalanced.balance (Nat.le_refl _)
    have hnone : (Outcome.start s.settings.maxAttempts).observed.length = 0 := rfl
    rw [World.backlog_eq_zero hempty, hnone, ho.log, hlog, List.append_nil] at hbalance
    omega
  · cases q with
    | error f => cases hc
    | ok rest =>
      cases hc
      obtain ⟨second, steps, hsteps, ht⟩ := fullCone_takes hq
      have hfindings := ht.findings rest rfl
      have hrest : .firewall ∈ steps := by
        rw [← hfindings]
        exact (List.mem_cons.mp hfirewall).resolve_left nofun
      simp only [List.mem_cons, List.not_mem_nil, or_false] at hsteps
      grind

namespace Client

variable {c : Client}

/-- The first step of a run that has a socket to probe from: the part of its history in which this socket
pings the primary listener, and the world at the end of that. Nothing is sent before. -/
inductive FirstStep (c : Client) (net : Network) (primary : Endpoint) (first : SocketAddress)
    (h pings : List Moment) (w' : World) : Prop
  | intro {before after : List Moment} {localIp : Ip} {w : World} {o : Outcome}
    (split : h = before ++ pings ++ after) (silent : transmissions before = [])
    (runs : (Session.probe ⟨c.settings, first, localIp, c.listenersAt primary⟩ .ping .primary).Runs net
      w pings o w')

/-- What the steps of a run say about the replies in its first step: the second step checks for a firewall only
if as many copies of replies have arrived as there are attempts. -/
def Counted (c : Client) (net : Network) (primary : Endpoint)
    (fate : List (Transmission × Bool) → Transmission → Role → List Nat) (h : List Moment)
    (own : Option String) (steps : List Step) : Prop :=
  (own = none ∧ .firewall ∉ steps) ∨
    ∃ first pings w', own = some first.text ∧ FirstStep c net primary first h pings w' ∧
      (.firewall ∈ steps →
        c.settings.maxAttempts.toNat ≤ (copies fate w'.clock (transmissions pings).reverse).sum)

variable {stamp : Stamp} {taken : List Endpoint} {primary : Endpoint} {report : Report}

theorem run_counted (hprimary : c.primary? net = some primary)
    (hnet : Posts net (c.listenersAt primary) seen fate)
    (hr : (c.run stamp).Runs net (.start taken) h (.ok report) w') :
    Counted c net primary fate h report.localAddress report.steps := by
  rcases run_walks hr with ⟨hnone, hsteps⟩ | ⟨rfl, hsilent, hquiet, hp, hlocal, hruns⟩
  · exact .inl ⟨hnone, by simp [hsteps]⟩
  rename_i primary' first localIp before walk after w₁ w₂
  obtain rfl : primary = primary' := Option.some.inj (hprimary.symm.trans hp)
  have hempty : ∀ d, ¬ w₁.Holds first d := by
    intro d hd
    rcases hquiet.holds hd with ⟨s, hs, -⟩ | ⟨a, ha, -⟩
    · cases hs
    · cases ha
  obtain ⟨pings, rest, o, w₃, rfl, hpings, hcopies⟩ :=
    Session.reachability_copies hnet c.maxAttempts_ne_zero hempty hquiet.log hruns
  have hsplit : before ++ (pings ++ rest) ++ after = before ++ pings ++ (rest ++ after) := by simp
  exact .inr ⟨first, pings, w₃, hlocal, .intro hsplit hsilent hpings, hcopies _ rfl⟩

theorem FirstStep.sends {first : SocketAddress} {pings : List Moment}
    (hf : FirstStep c net primary first h pings w') :
    Sends pings
      (List.replicate c.settings.maxAttempts.toNat (first, primary, (Message.request .ping).encode)) := by
  obtain ⟨-, -, runs⟩ := hf
  exact attemptTimes_sends runs

/-- A run that fails has sent no more than the requests of the two steps before the second socket is bound,
and so it has not checked for a firewall. -/
theorem not_firewall_of_error {f : Failure} {w : World} (hr : (c.run stamp).Runs net w h (.error f) w')
    {e : Transmission × Bool} (he : e ∈ transmissions h) :
    e.1.payload ≠ (Message.request Step.firewall.kind).encode := by
  obtain ⟨server, hserver⟩ := c.exists_server net
  obtain ⟨os, hb, -, herror⟩ := run_batches hr hserver
  obtain ⟨step, hstep, hpayload⟩ := hb.exists_step he
  have hsteps := herror f rfl
  simp only [List.mem_cons, List.not_mem_nil, or_false] at hsteps
  rw [hpayload]
  rcases hsteps with hnone | htwo
  · rw [hnone] at hstep
    cases hstep
  · rw [htwo] at hstep
    simp only [List.mem_cons, List.not_mem_nil, or_false] at hstep
    rcases hstep with rfl | rfl <;> decide

/-- In a network that loses, delays and copies datagrams, a run takes the path to the second step only if as
many copies of the primary listener's replies have arrived by the end of the first step as it has pings. If
the network copies nothing, each ping must have been answered by then. A run that fails does so on the other
path. -/
theorem run_counts_replies {r : Attempted Report} (hprimary : c.primary? net = some primary)
    (hnet : Posts net (c.listenersAt primary) seen fate)
    (hr : (c.run stamp).Runs net (.start taken) h r w') :
    (∀ report, r = .ok report →
      (report.localAddress = none ∧ .firewall ∉ report.steps) ∨
        ∃ first pings w₁, report.localAddress = some first.text ∧
          FirstStep c net primary first h pings w₁ ∧
          Sends pings (List.replicate c.settings.maxAttempts.toNat
            (first, primary, (Message.request .ping).encode)) ∧
          ((copies fate w₁.clock (transmissions pings).reverse).sum < c.settings.maxAttempts.toNat →
            .firewall ∉ report.steps) ∧
          ((∀ log t role, (fate log t role).length ≤ 1) →
            0 ∈ copies fate w₁.clock (transmissions pings).reverse → .firewall ∉ report.steps)) ∧
      ∀ f, r = .error f →
        ∀ e ∈ transmissions h, e.1.payload ≠ (Message.request Step.firewall.kind).encode := by
  refine ⟨?_, fun f hf e he => ?_⟩
  · rintro report rfl
    rcases run_counted hprimary hnet hr with hnone | ⟨first, pings, w₁, hlocal, hfirst, hcopies⟩
    · exact .inl hnone
    have hsends := hfirst.sends
    refine .inr ⟨first, pings, w₁, hlocal, hfirst, hsends, ?_, ?_⟩
    · exact fun hfew hfirewall => Nat.not_lt.mpr (hcopies hfirewall) hfew
    · intro hsingle hlost hfirewall
      have hfew := sum_lt_length (copies_le_one hsingle) hlost
      rw [length_copies, List.length_reverse, ← hsends.length_transmissions, List.length_replicate] at hfew
      exact Nat.not_lt.mpr (hcopies hfirewall) hfew
  · subst hf
    exact not_firewall_of_error hr he

/-- No copy arrives of a reply that is lost. -/
theorem zero_mem_copies (later : List (Transmission × Bool)) (e : Transmission × Bool)
    (earlier : List (Transmission × Bool)) (hlost : fate earlier e.1 .primary = []) :
    0 ∈ copies fate time (later ++ e :: earlier) := by
  induction later with
  | nil =>
    refine List.mem_cons.mpr (.inl ?_)
    simp [hlost]
  | cons e' later ih => exact List.mem_cons_of_mem _ ih

/-- A default client pings three times. -/
theorem FirstStep.three {first : SocketAddress} {pings : List Moment}
    (hf : FirstStep Client.default net primary first h pings w') :
    ∃ e₁ e₂ e₃, transmissions pings = [e₁, e₂, e₃] ∧ e₃.1.payload = (Message.request .ping).encode := by
  obtain ⟨e₁, e₂, e₃, hthree⟩ := List.length_eq_three.mp hf.sends.length_transmissions.symm
  have hmem := Network.mem_addressed (e := e₃) (by simp [hthree] : e₃ ∈ transmissions pings)
  rw [hf.sends.addressed] at hmem
  exact ⟨e₁, e₂, e₃, hthree, (Prod.mk.inj (Prod.mk.inj (List.eq_of_mem_replicate hmem)).2).2⟩

/-- Of the replies to each kind of request, the one to the second transmission of all is lost. -/
def losingRelay : Network :=
  relay narrowHost loopbackListeners id (fun log _ _ => log.length ≠ 1) [20]

theorem run_counts_replies_lost :
    ∃ h report w', (Client.default.run ⟨⟨0⟩, 0⟩).Runs losingRelay (.start []) h (.ok report) w' ∧
      report.localAddress.isSome ∧ .firewall ∉ report.steps := by
  have hresult : ((Client.default.run ⟨⟨0⟩, 0⟩).run losingRelay (.start [])).1.toOption.map
      (·.localAddress.isSome) = some true := by decide +kernel
  obtain ⟨report, w', hrun, hopened⟩ := exists_report hresult
  obtain ⟨h, hr⟩ := Program.runs_of_run hrun
  have hprimary : Client.default.primary? losingRelay = some (.v4 .loopback 3478) := by decide +kernel
  have hnet : Posts losingRelay (Client.default.listenersAt (.v4 .loopback 3478)) (fun _ t => t.source)
      (relayFate (fun log _ _ => log.length ≠ 1) [20]) := relay_posts
  refine ⟨h, report, w', hr, hopened, ?_⟩
  rcases (run_counts_replies hprimary hnet hr).1 report rfl with
    ⟨-, hfirewall⟩ | ⟨first, pings, w₁, -, hfirst, -, -, hlost⟩
  · exact hfirewall
  refine hlost ?_ ?_
  · intro log t role
    rw [relayFate]
    split <;> decide
  · obtain ⟨e₁, e₂, e₃, hthree, -⟩ := hfirst.three
    rw [hthree]
    exact zero_mem_copies [e₃] e₂ [e₁] rfl

/-- Of the pings, only the first one is answered; of each reply three copies arrive. -/
def copyingRelay : Network :=
  relay narrowHost loopbackListeners id
    (fun log t _ => log = [] || t.payload ≠ (Message.request .ping).encode) [20, 30, 40]

/-- Copies of one reply pass for replies to three pings, two of which have not been answered. -/
theorem copies_make_up_for_losses :
    ∃ (fate : List (Transmission × Bool) → Transmission → Role → List Nat) (primary : Endpoint)
        (h pings : List Moment) (report : Report) (w' w₁ : World) (first : SocketAddress),
      Posts copyingRelay (Client.default.listenersAt primary) (fun _ t => t.source) fate ∧
      (Client.default.run ⟨⟨0⟩, 0⟩).Runs copyingRelay (.start []) h (.ok report) w' ∧
      FirstStep Client.default copyingRelay primary first h pings w₁ ∧
      0 ∈ copies fate w₁.clock (transmissions pings).reverse ∧ .firewall ∈ report.steps := by
  have hresult : ((Client.default.run ⟨⟨0⟩, 0⟩).run copyingRelay (.start [])).1.toOption.map
      (·.steps) = some [.reachability, .firewall] := by decide +kernel
  obtain ⟨report, w', hrun, hsteps⟩ := exists_report hresult
  obtain ⟨h, hr⟩ := Program.runs_of_run hrun
  have hprimary : Client.default.primary? copyingRelay = some (.v4 .loopback 3478) := by decide +kernel
  have hnet : Posts copyingRelay (Client.default.listenersAt (.v4 .loopback 3478)) (fun _ t => t.source)
      (relayFate (fun log t _ => log = [] || t.payload ≠ (Message.request .ping).encode) [20, 30, 40]) :=
    relay_posts
  have hfirewall : .firewall ∈ report.steps := by simp [hsteps]
  rcases run_counted hprimary hnet hr with ⟨-, hnone⟩ | ⟨first, pings, w₁, -, hfirst, -⟩
  · exact absurd hfirewall hnone
  obtain ⟨e₁, e₂, e₃, hthree, hping⟩ := hfirst.three
  refine ⟨_, _, h, pings, report, w', w₁, first, hnet, hr, hfirst, ?_, hfirewall⟩
  rw [hthree]
  refine zero_mem_copies [] e₃ [e₂, e₁] ?_
  simp [relayFate, hping]

end Client

end NatBehaviour.Discovery
