import NatBehaviour.Proofs.Discovery.Explanation
import NatBehaviour.Proofs.Network.Transmissions
import NatBehaviour.Proofs.Probe.Attempts

/-!
What a discovery asks for. The requests of a run follow from the steps that it takes: each step asks for
one kind of reply, some number of times and from one socket after the other. All of them go to the primary
listener, whatever the network does; one datagram to another listener would open a filter that later steps
are to find closed.
-/

namespace NatBehaviour.Discovery

open NatBehaviour.Json (Bytes)
open NatBehaviour.Net (Ip Endpoint)
open NatBehaviour.Network (Moment OneByOne Orderly Program SocketAddress Transmission World addressed
  transmissions)
open NatBehaviour.Probe (Batch Outcome)
open NatBehaviour.Responder (restrictingRelay)
open NatBehaviour.Wire (Kind Message Role)

/-! ## Requests of steps -/

/-- The sockets that a step sends from, in turn. -/
def Step.senders (first second : SocketAddress) : Step → List SocketAddress
  | .symmetricNat => [first, second]
  | _ => [first]

/-- What a step asks for, and from where. -/
def Step.requests (attempts : Nat) (first second : SocketAddress) (step : Step) :
    List (SocketAddress × Kind) :=
  (step.senders first second).flatMap fun x => List.replicate attempts (x, step.kind)

/-- The steps of all runs that have a socket to probe from. -/
def paths : List (List Step) :=
  [[.reachability],
   [.reachability, .firewall],
   [.reachability, .fullCone],
   [.reachability, .fullCone, .symmetricNat],
   [.reachability, .fullCone, .symmetricNat, .portRestriction]]

/-- The requests of some steps on their way to the primary listener. -/
def asks (attempts : Nat) (primary : Endpoint) (first second : SocketAddress) (steps : List Step) :
    List (SocketAddress × Endpoint × Bytes) :=
  (steps.flatMap (Step.requests attempts first second)).map fun (x, kind) =>
    (x, primary, (Message.request kind).encode)

/-- A socket is bound in a run, in place of some address. -/
def BindsTo (h : List Moment) (address : Endpoint) (socket : SocketAddress) : Prop :=
  ∃ w, ⟨w, .bind address, .ok socket⟩ ∈ h

/-- A socket cannot be bound in a run. -/
def FailsToBind (h : List Moment) (address : Endpoint) : Prop :=
  ∃ w e, ⟨w, .bind address, .error e⟩ ∈ h

theorem BindsTo.mono {h h' : List Moment} {address : Endpoint} {socket : SocketAddress}
    (hb : BindsTo h address socket) (hh : h ⊆ h') : BindsTo h' address socket :=
  hb.imp fun _ hm => hh hm

theorem FailsToBind.mono {h h' : List Moment} {address : Endpoint} (hf : FailsToBind h address)
    (hh : h ⊆ h') : FailsToBind h' address := hf.imp fun _ => .imp fun _ hm => hh hm

namespace Client

/-- The address of the primary listener, if the name of the server stands for any. -/
def primary? (c : Client) (net : Network) : Option Endpoint :=
  preferred? (net.resolve c.settings.serverHost c.settings.ports.primary)

/-- Why a run has no socket to probe from. -/
inductive Unopened (c : Client) (net : Network) (h : List Moment) : Prop
  | unresolved (none : c.primary? net = none)
  | routeUnknown {primary : Endpoint} (resolved : c.primary? net = some primary)
    (refused : FailsToBind h (routeAddress primary))
  | noRoute {primary : Endpoint} (resolved : c.primary? net = some primary)
    (none : net.route primary = none)
  | refused {primary : Endpoint} {localIp : Ip} (resolved : c.primary? net = some primary)
    (routed : net.route primary = some localIp)
    (refused : FailsToBind h (.of localIp c.settings.localPort))

/-- What a run tries to send, given its first socket and its steps. -/
inductive Asks (c : Client) (net : Network) (h : List Moment) :
    Option SocketAddress → List Step → Prop
  | nothing (unopened : Unopened c net h) (silent : transmissions h = []) : Asks c net h none []
  | steps {primary : Endpoint} {localIp : Ip} {first second : SocketAddress} {steps : List Step}
    (resolved : c.primary? net = some primary) (routed : net.route primary = some localIp)
    (bound : BindsTo h (.of localIp c.settings.localPort) first)
    (other : .symmetricNat ∈ steps → BindsTo h (.of localIp 0) second)
    (path : steps ∈ paths)
    (requests : addressed h = asks c.settings.maxAttempts.toNat primary first second steps) :
    Asks c net h (some first) steps

end Client

/-! ## Runs that send just that -/

/-- A run tries to send just some requests, one after the other. -/
structure Sends (h : List Moment) (requests : List (SocketAddress × Endpoint × Bytes)) : Prop where
  addressed : addressed h = requests
  oneByOne : OneByOne h

namespace Sends

variable {h h' : List Moment} {rs rs' : List (SocketAddress × Endpoint × Bytes)}

theorem nil : Sends [] [] := ⟨rfl, .nil⟩

theorem length_transmissions (hs : Sends h rs) : rs.length = (transmissions h).length := by
  rw [← hs.addressed, Network.addressed, List.length_map]

theorem append (hs : Sends h rs) (hs' : Sends h' rs') : Sends (h ++ h') (rs ++ rs') :=
  ⟨by rw [Network.addressed_append, hs.addressed, hs'.addressed], hs.oneByOne.append hs'.oneByOne⟩

/-- Moments at which nothing is sent do not matter. -/
theorem cons {m : Moment} (hm : m.transmission? = none) (hs : Sends h rs) : Sends (m :: h) rs :=
  ⟨(Network.addressed_cons_of_none hm h).trans hs.addressed, .other hm hs.oneByOne⟩

theorem concat {m : Moment} (hs : Sends h rs) (hm : m.transmission? = none) : Sends (h ++ [m]) rs := by
  have happend := hs.append (Sends.nil.cons hm)
  rwa [List.append_nil] at happend

end Sends

/-- Where there is one sender only, a step asks for the same thing again and again. -/
theorem asks_single {attempts : Nat} {primary : Endpoint} {first second : SocketAddress} {step : Step}
    (hstep : step ≠ .symmetricNat) :
    asks attempts primary first second [step] =
      List.replicate attempts (first, primary, (Message.request step.kind).encode) := by
  cases step <;> simp_all [asks, Step.requests, Step.senders]

theorem asks_symmetricNat (attempts : Nat) (primary : Endpoint) (first second : SocketAddress) :
    asks attempts primary first second [.symmetricNat] =
      List.replicate attempts (first, primary, (Message.request .ping).encode) ++
        List.replicate attempts (second, primary, (Message.request .ping).encode) := by
  simp [asks, Step.requests, Step.senders, Step.kind]

variable {net : Network} {w w' : World} {h : List Moment}

section Batches

variable {b : Batch} {o o' : Outcome}

theorem attempt_sends (hr : (b.attempt o).Runs net w h o' w') :
    Sends h [(b.socket, b.destination, b.message.encode)] := by
  rcases Batch.attempt_runs hr with ⟨-, rfl, -⟩ | ⟨w₁, r, -, -, rfl, -⟩
  · exact ⟨rfl, .refused .nil⟩
  · exact ⟨rfl, .awaited .nil⟩

theorem attemptTimes_sends {n : Nat} (hr : (b.attemptTimes n o).Runs net w h o' w') :
    Sends h (List.replicate n (b.socket, b.destination, b.message.encode)) := by
  induction n generalizing o w h with
  | zero =>
    obtain ⟨rfl, -, -⟩ := Batch.attemptTimes_runs_zero hr
    exact .nil
  | succ n ih =>
    obtain ⟨h₁, h₂, o₁, w₁, rfl, hfirst, hrest⟩ := Batch.attemptTimes_runs_succ hr
    exact (attempt_sends hfirst).append (ih hrest)

end Batches

namespace Session

variable {s : Session}

/-- The requests of some steps of a session. -/
def asks (s : Session) (second : SocketAddress) (steps : List Step) :
    List (SocketAddress × Endpoint × Bytes) :=
  Discovery.asks s.settings.maxAttempts.toNat s.server.primary s.socket second steps

theorem asks_cons (s : Session) (second : SocketAddress) (step : Step) (steps : List Step) :
    s.asks second (step :: steps) = s.asks second [step] ++ s.asks second steps := by
  simp [asks, Discovery.asks]

theorem probe_sends (step : Step) {o : Outcome} (hstep : step ≠ .symmetricNat)
    (hr : (s.probe step.kind step.expected).Runs net w h o w') (second : SocketAddress) :
    Sends h (s.asks second [step]) := by
  rw [asks, asks_single hstep]
  exact attemptTimes_sends hr

/-- A run from some point on sends the requests of certain steps, and these are the steps that it finds
something in. If two sockets send, the second one is bound for it. -/
structure Takes (s : Session) (h : List Moment) (second : SocketAddress) (steps : List Step)
    (r : Attempted Course) : Prop where
  sends : Sends h (s.asks second steps)
  other : .symmetricNat ∈ steps → BindsTo h (.of s.localIp 0) second
  findings : ∀ course, r = .ok course → course.findings.map (·.step) = steps

namespace Takes

variable {h' : List Moment} {second : SocketAddress} {step : Step} {steps : List Step} {os : List Outcome}
  {verdict : String}

/-- A run that ends with the step at hand. -/
theorem concluded (hstep : step ≠ .symmetricNat) (hs : Sends h (s.asks second [step]))
    (k : Classification) : Takes s h second [step] (.ok (.concluded step os verdict k)) where
  sends := hs
  other := fun hmem => absurd (List.mem_singleton.mp hmem).symm hstep
  findings := by
    intro course hc
    cases hc
    rfl

/-- A run that goes on after the step at hand. -/
theorem after {q : Attempted Course} (hstep : step ≠ .symmetricNat)
    (hs : Sends h (s.asks second [step])) (ht : Takes s h' second steps q) :
    Takes s (h ++ h') second (step :: steps) (q.map (·.after step os verdict)) where
  sends := by
    rw [asks_cons]
    exact hs.append ht.sends
  other := fun hmem =>
    (ht.other ((List.mem_cons.mp hmem).resolve_left hstep.symm)).mono (List.subset_append_right h h')
  findings := by
    cases q with
    | error f =>
      intro course hc
      cases hc
    | ok rest =>
      intro course hc
      cases hc
      exact congrArg (step :: ·) (ht.findings rest rfl)

end Takes

theorem portRestriction_takes {c : Course} (hr : s.portRestriction.Runs net w h c w')
    (second : SocketAddress) : Takes s h second [.portRestriction] (.ok c) := by
  obtain ⟨o, ho, rfl⟩ := portRestriction_runs hr
  have hs := probe_sends .portRestriction (by decide) ho second
  split
  · exact .concluded (by decide) hs _
  · exact .concluded (by decide) hs _

theorem firewall_takes {c : Course} (hr : s.firewall.Runs net w h c w') (second : SocketAddress) :
    Takes s h second [.firewall] (.ok c) := by
  obtain ⟨o, ho, rfl⟩ := firewall_runs hr
  have hs := probe_sends .firewall (by decide) ho second
  split
  · exact .concluded (by decide) hs _
  · exact .concluded (by decide) hs _

theorem compared_sends {a b : Outcome} (hc : Compared net s w h a b w') :
    ∃ second, BindsTo h (.of s.localIp 0) second ∧ Sends h (s.asks second [.symmetricNat]) := by
  obtain ⟨bound, first, other⟩ := hc
  rename_i second w₁ w₂ w₃ h₁ h₂
  refine ⟨second, ⟨w, List.mem_cons_self⟩, ?_⟩
  have hboth := (attemptTimes_sends first).append (attemptTimes_sends other)
  rw [asks, asks_symmetricNat]
  exact (hboth.concat rfl).cons rfl

theorem symmetric_takes {r : Attempted Course} (hr : s.symmetric.Runs net w h r w') :
    ∃ second, ∃ steps ∈ [[], [.symmetricNat], [.symmetricNat, .portRestriction]],
      Takes s h second steps r := by
  rcases symmetric_runs hr with ⟨e, -, rfl, rfl⟩ | ⟨a, b, w₁, h₁, h₂, rfl, hc, hpath⟩
  · exact ⟨s.socket, [], by simp, Sends.nil.cons rfl, nofun, nofun⟩
  obtain ⟨second, hbound, hs⟩ := compared_sends hc
  have hother := hbound.mono (List.subset_append_left h₁ h₂)
  rcases hpath with ⟨-, c, hp, rfl⟩ | ⟨verdict, -, rfl, -, rfl⟩
  · have hp := portRestriction_takes hp second
    refine ⟨second, [.symmetricNat, .portRestriction], by simp, ?_, fun _ => hother, ?_⟩
    · rw [asks_cons]
      exact hs.append hp.sends
    · intro course hcourse
      cases hcourse
      exact congrArg (Step.symmetricNat :: ·) (hp.findings c rfl)
  · rw [List.append_nil] at hother ⊢
    refine ⟨second, [.symmetricNat], by simp, hs, fun _ => hother, ?_⟩
    intro course hc
    cases hc
    rfl

theorem fullCone_takes {r : Attempted Course} (hr : s.fullCone.Runs net w h r w') :
    ∃ second, ∃ steps ∈ [[.fullCone], [.fullCone, .symmetricNat],
      [.fullCone, .symmetricNat, .portRestriction]], Takes s h second steps r := by
  obtain ⟨o, w₁, h₁, h₂, rfl, ho, ⟨-, rfl, -, rfl⟩ | ⟨-, q, hq, rfl⟩⟩ := fullCone_runs hr
  · have hs := probe_sends .fullCone (by decide) ho s.socket
    rw [List.append_nil]
    exact ⟨s.socket, [.fullCone], by simp, .concluded (by decide) hs _⟩
  · obtain ⟨second, steps, hsteps, ht⟩ := symmetric_takes hq
    have hs := probe_sends .fullCone (by decide) ho second
    refine ⟨second, .fullCone :: steps, ?_, .after (by decide) hs ht⟩
    simpa using hsteps

theorem reachability_takes {r : Attempted Course} (hr : s.reachability.Runs net w h r w') :
    ∃ second, ∃ steps ∈ paths, Takes s h second steps r := by
  obtain ⟨o, w₁, h₁, h₂, rfl, ho, hpath⟩ := reachability_runs hr
  have hs (second : SocketAddress) := probe_sends .reachability (by decide) ho second
  rcases hpath with ⟨-, rfl, -, rfl⟩ | ⟨-, -, c, hc, rfl⟩ | ⟨-, -, q, hq, rfl⟩
  · rw [List.append_nil]
    exact ⟨s.socket, [.reachability], by simp [paths], .concluded (by decide) (hs _) _⟩
  · exact ⟨s.socket, [.reachability, .firewall], by simp [paths],
      .after (by decide) (hs _) (firewall_takes hc _)⟩
  · obtain ⟨second, steps, hsteps, ht⟩ := fullCone_takes hq
    refine ⟨second, .reachability :: steps, ?_, .after (by decide) (hs second) ht⟩
    simp only [paths, List.mem_cons, List.not_mem_nil, or_false] at hsteps ⊢
    grind

end Session

/-! ## Runs of clients -/

namespace Client

variable {c : Client} {first? : Option SocketAddress} {steps : List Step}

theorem Unopened.mono {h' : List Moment} (hu : Unopened c net h) (hh : h ⊆ h') : Unopened c net h' := by
  cases hu with
  | unresolved none => exact .unresolved none
  | noRoute resolved none => exact .noRoute resolved none
  | routeUnknown resolved refused => exact .routeUnknown resolved (refused.mono hh)
  | refused resolved routed refused => exact .refused resolved routed (refused.mono hh)

theorem Asks.mono {h' : List Moment} (ha : Asks c net h first? steps) (hh : h ⊆ h')
    (hsame : transmissions h' = transmissions h) : Asks c net h' first? steps := by
  cases ha with
  | nothing unopened silent => exact .nothing (unopened.mono hh) (hsame.trans silent)
  | steps resolved routed bound other path requests =>
    have hrequests : addressed h' = addressed h := by rw [addressed, hsame, addressed]
    exact .steps resolved routed (bound.mono hh) (fun hmem => (other hmem).mono hh) path
      (hrequests.trans requests)

/-- The requests of a run go to one address only. -/
theorem Asks.destination (ha : Asks c net h first? steps) {e : Transmission × Bool}
    (he : e ∈ transmissions h) : c.primary? net = some e.1.destination := by
  cases ha with
  | nothing unopened silent =>
    rw [silent] at he
    cases he
  | steps resolved routed bound other path requests =>
    have hmem := Network.mem_addressed he
    rw [requests] at hmem
    obtain ⟨request, -, heq⟩ := List.mem_map.mp hmem
    rw [resolved, (Prod.mk.inj (Prod.mk.inj heq).2).1]

theorem mem_of_preferred? {resolved : List Endpoint} {e : Endpoint} (h : preferred? resolved = some e) :
    e ∈ resolved := by
  rcases Option.or_eq_some_iff.mp h with hv4 | ⟨-, hhead⟩
  · exact List.mem_of_find?_eq_some hv4
  · exact List.mem_of_head? hhead

/-- The address of another listener is that of the primary one only if both ports are zero. -/
theorem shared_address (hnet : Orderly net) {primary : Endpoint} (hp : c.primary? net = some primary)
    {role : Role} (hrole : role ≠ .primary) (hsame : (c.listenersAt primary).get role = primary) :
    primary.port = 0 ∧ c.settings.ports.primary = 0 ∧ c.settings.ports.get role = 0 := by
  have hport : primary.port = c.settings.ports.primary := hnet.port (mem_of_preferred? hp)
  obtain ⟨hzero, hprimary⟩ := zero_of_shared_address hport hrole hsame
  exact ⟨hport.trans hprimary, hprimary, hzero⟩

/-- A run asks for just the replies that the steps of its trail need. -/
structure Follows (c : Client) (net : Network) (h : List Moment) (first? : Option SocketAddress)
    (steps : List Step) (r : Attempted Trail) : Prop where
  asks : Asks c net h first? steps
  oneByOne : OneByOne h
  shown : ∀ t, r = .ok t → t.localAddress = first?.map Endpoint.text ∧
    (t.localAddress.isSome → t.course.findings.map (·.step) = steps)

namespace Follows

variable {r : Attempted Trail} {m : Moment}

theorem cons (hm : m.transmission? = none) (hf : Follows c net h first? steps r) :
    Follows c net (m :: h) first? steps r :=
  ⟨hf.asks.mono (List.subset_cons_self m h) (Network.transmissions_cons_of_none hm h),
    .other hm hf.oneByOne, hf.shown⟩

theorem unopened (hu : Unopened c net h) (hs : Sends h []) (hr : ∀ t, r = .ok t → t.localAddress = none) :
    Follows c net h none [] r where
  asks := .nothing hu (List.map_eq_nil_iff.mp hs.addressed)
  oneByOne := hs.oneByOne
  shown := by
    intro t ht
    simp [hr t ht]

end Follows

theorem takeSteps_follows {primary : Endpoint} {localIp : Ip} {r : Attempted Trail}
    (hprimary : c.primary? net = some primary) (hroute : net.route primary = some localIp)
    (hr : (c.takeSteps (c.listenersAt primary) localIp).Runs net w h r w') :
    ∃ first? steps, Follows c net h first? steps r := by
  rcases takeSteps_runs hr with ⟨e, -, rfl, rfl⟩ | ⟨first, w₁, h₁, q, w₂, -, hq, -, rfl, rfl⟩
  · have hrefused : Unopened c net [⟨w, .bind (.of localIp c.settings.localPort), .error e⟩] :=
      .refused hprimary hroute ⟨w, e, List.mem_cons_self⟩
    exact ⟨none, [], .unopened hrefused (Sends.nil.cons rfl) nofun⟩
  obtain ⟨second, steps, hpath, ht⟩ := Session.reachability_takes hq
  have hs := (ht.sends.concat (m := ⟨w₂, .close first, ()⟩) rfl).cons
    (m := ⟨w, .bind (.of localIp c.settings.localPort), .ok first⟩) rfl
  refine ⟨some first, steps, ?_, hs.oneByOne, ?_⟩
  · refine .steps hprimary hroute ⟨w, List.mem_cons_self⟩ ?_ hpath hs.addressed
    exact fun hmem => (ht.other hmem).mono fun m hm => List.mem_cons_of_mem _ (List.mem_append_left _ hm)
  · intro t htrail
    cases q with
    | error f => cases htrail
    | ok course =>
      cases htrail
      exact ⟨rfl, fun _ => ht.findings course rfl⟩

theorem trail_follows {r : Attempted Trail} (hr : c.trail.Runs net w h r w') :
    ∃ first? steps, Follows c net h first? steps r := by
  obtain ⟨h₁, rfl, ⟨hnone, rfl, -, rfl⟩ | ⟨primary, hprimary, h₂, h₃, q, w₁, rfl, hout, hpath⟩⟩ :=
    trail_runs hr
  · refine ⟨none, [], .unopened (.unresolved hnone) (Sends.nil.cons rfl) ?_⟩
    intro t ht
    cases ht
    rfl
  rcases outboundIp_runs hout with ⟨e, -, rfl, rfl⟩ | ⟨socket, w₂, -, rfl, rfl, -⟩
  · rcases hpath with ⟨f, -, rfl, -, rfl⟩ | ⟨hq, -⟩ | ⟨localIp, hq, -⟩
    · refine ⟨none, [], .unopened (.routeUnknown hprimary ⟨w, e, ?_⟩) ((Sends.nil.cons rfl).cons rfl) nofun⟩
      simp
    · cases hq
    · cases hq
  rcases hpath with ⟨f, hq, -⟩ | ⟨hq, rfl, -, rfl⟩ | ⟨localIp, hq, hsteps⟩
  · cases hq
  · refine ⟨none, [], .unopened (.noRoute hprimary (Except.ok.inj hq)) ?_ ?_⟩
    · exact (((Sends.nil.cons rfl).cons rfl).cons rfl).cons rfl
    · intro t ht
      cases ht
      rfl
  · obtain ⟨first?, steps, hf⟩ := takeSteps_follows hprimary (Except.ok.inj hq) hsteps
    exact ⟨first?, steps, (((hf.cons rfl).cons rfl).cons rfl).cons rfl⟩

/-- Whatever the network does, a run tries to send nothing but the requests of the steps that it takes,
one after the other and all to the primary listener, and its report shows which ones these were. Another
listener can have the same address only if both ports are zero, and then nothing is sent. -/
theorem run_asks {stamp : Stamp} {r : Attempted Report} (hr : (c.run stamp).Runs net w h r w') :
    ∃ first? steps, Asks c net h first? steps ∧ OneByOne h ∧
      w'.log = (transmissions h).reverse ++ w.log ∧
      (∀ report, r = .ok report → report.localAddress = first?.map Endpoint.text ∧
        (report.localAddress.isSome → report.steps = steps)) ∧
      (Orderly net → ∀ e ∈ transmissions h, ∀ role ≠ Role.primary,
        (c.listenersAt e.1.destination).get role = e.1.destination →
          e.2 = false ∧ c.settings.ports.primary = 0 ∧ c.settings.ports.get role = 0) := by
  have hlog := hr.log
  obtain ⟨t, h₁, h₂, ht, hh, hend⟩ := run_runs hr
  obtain ⟨first?, steps, hf⟩ := trail_follows ht
  have hclock : transmissions h₂ = [] ∧ OneByOne h₂ := by
    rcases hend with ⟨f, -, rfl, -⟩ | ⟨trail, -, rfl, -⟩
    · exact ⟨rfl, .nil⟩
    · exact ⟨rfl, .other rfl .nil⟩
  have hasks : Asks c net h first? steps ∧ OneByOne h := by
    subst hh
    refine ⟨hf.asks.mono (fun m hm => ?_) ?_, .other rfl (hf.oneByOne.append hclock.2)⟩
    · exact List.mem_cons_of_mem _ (List.mem_append_left h₂ hm)
    · rw [Network.transmissions_cons_of_none rfl, Network.transmissions_append, hclock.1, List.append_nil]
  refine ⟨first?, steps, hasks.1, hasks.2, hlog, ?_, ?_⟩
  · intro report hreport
    subst hreport
    rcases hend with ⟨f, -, -, hreport⟩ | ⟨trail, rfl, -, hreport⟩
    · cases hreport
    · cases hreport
      exact hf.shown trail rfl
  · intro hnet e he role hrole hsame
    obtain ⟨hzero, hports⟩ := shared_address hnet (hasks.1.destination he) hrole hsame
    refine ⟨?_, hports⟩
    cases hsent : e.2 with
    | false => rfl
    | true =>
      have he' : (e.1, true) ∈ transmissions h := hsent ▸ he
      exact absurd hzero (hr.sent_port hnet he')

/-- A run of all steps that can follow each other. Its requests reach nobody but the primary listener. -/
theorem run_asks_restricted :
    ∃ h r w' first?, (Client.default.run ⟨⟨0⟩, 0⟩).Runs (restrictingRelay [20]) (.start []) h r w' ∧
      Asks Client.default (restrictingRelay [20]) h first?
        [.reachability, .fullCone, .symmetricNat, .portRestriction] ∧
      ∀ e ∈ transmissions h, ∀ role ≠ Role.primary,
        (Client.default.listenersAt e.1.destination).get role ≠ e.1.destination := by
  have hresult : ((Client.default.run ⟨⟨0⟩, 0⟩).run (restrictingRelay [20]) (.start [])).1.toOption.map
      (fun report => (report.localAddress.isSome, report.steps)) =
        some (true, [.reachability, .fullCone, .symmetricNat, .portRestriction]) := by decide +kernel
  obtain ⟨report, w', hrun, hreport⟩ := exists_report hresult
  obtain ⟨hopened, hsteps⟩ := Prod.mk.inj hreport
  obtain ⟨h, hr⟩ := Program.runs_of_run hrun
  obtain ⟨first?, steps, hasks, -, -, hshown, hothers⟩ := run_asks hr
  obtain rfl := ((hshown report rfl).2 hopened).symm.trans hsteps
  refine ⟨h, .ok report, w', first?, hr, hasks, ?_⟩
  intro e he role hrole hsame
  have hnet : Orderly (restrictingRelay [20]) := Network.Host.orderly_network _ _
  obtain ⟨-, hzero, -⟩ := hothers hnet e he role hrole hsame
  exact default_ports _ List.mem_cons_self hzero

/-! ## Runs that take steps -/

/-- Looking for the way to the server sends nothing. -/
theorem outboundIp_silent {primary : Endpoint} {r : Attempted (Option Ip)}
    (hr : (outboundIp primary).Runs net w h r w') : transmissions h = [] := by
  rcases outboundIp_runs hr with ⟨e, -, rfl, -⟩ | ⟨socket, w₁, -, rfl, -, -⟩
  · rfl
  · rfl

/-- A run that comes to take steps: its first socket, and the part of its history in which it takes them.
Nothing is sent before. -/
inductive Walks (c : Client) (net : Network) (w : World) (h : List Moment) (own : Option String)
    (course : Course) : Prop
  | intro {primary : Endpoint} {first : SocketAddress} {localIp : Ip} {before walk after : List Moment}
    {w₁ w₂ : World} (split : h = before ++ walk ++ after) (silent : transmissions before = [])
    (quiet : w.Quiet w₁) (resolved : c.primary? net = some primary) (opened : own = some first.text)
    (runs : (Session.reachability ⟨c.settings, first, localIp, c.listenersAt primary⟩).Runs net w₁ walk
      (.ok course) w₂) : Walks c net w h own course

theorem Walks.extend {w₀ : World} {own : Option String} {course : Course} (hw : Walks c net w h own course)
    {earlier : List Moment} (hsilent : transmissions earlier = []) (hquiet : w₀.Quiet w)
    (later : List Moment) : Walks c net w₀ (earlier ++ h ++ later) own course := by
  obtain ⟨split, silent, quiet, resolved, opened, runs⟩ := hw
  rename_i primary first localIp before walk after w₁ w₂
  have hsplit : earlier ++ h ++ later = (earlier ++ before) ++ walk ++ (after ++ later) := by
    simp [split]
  refine .intro hsplit ?_ (hquiet.trans quiet) resolved opened runs
  rw [Network.transmissions_append, hsilent, silent, List.append_nil]

theorem takeSteps_walks {primary : Endpoint} {localIp : Ip} {t : Trail}
    (hprimary : c.primary? net = some primary)
    (hr : (c.takeSteps (c.listenersAt primary) localIp).Runs net w h (.ok t) w') :
    Walks c net w h t.localAddress t.course := by
  rcases takeSteps_runs hr with ⟨e, -, -, he⟩ | ⟨first, w₁, walk, q, w₂, hb, hq, -, ht, rfl⟩
  · cases he
  cases q with
  | error f => cases ht
  | ok course =>
    cases ht
    have hsplit : ⟨w, .bind (.of localIp c.settings.localPort), .ok first⟩ ::
        (walk ++ [⟨w₂, .close first, ()⟩]) =
        [⟨w, .bind (.of localIp c.settings.localPort), .ok first⟩] ++ walk ++ [⟨w₂, .close first, ()⟩] := rfl
    exact .intro hsplit rfl (World.quiet_bindSocket hb) hprimary rfl hq

theorem trail_walks {t : Trail} (hr : c.trail.Runs net w h (.ok t) w') :
    (t.localAddress = none ∧ t.course.findings.map (·.step) = [.reachability]) ∨
      Walks c net w h t.localAddress t.course := by
  obtain ⟨h₁, rfl, ⟨-, -, -, ht⟩ | ⟨primary, hprimary, h₂, h₃, q, w₁, rfl, hout, hpath⟩⟩ := trail_runs hr
  · cases ht
    exact .inl ⟨rfl, rfl⟩
  rcases hpath with ⟨f, -, -, -, hf⟩ | ⟨-, -, -, ht⟩ | ⟨localIp, -, hsteps⟩
  · cases hf
  · cases ht
    exact .inl ⟨rfl, rfl⟩
  · have hsilent := outboundIp_silent hout
    have hearlier : transmissions (⟨w, .resolve c.settings.serverHost c.settings.ports.primary,
        net.resolve c.settings.serverHost c.settings.ports.primary⟩ :: h₂) = [] :=
      (Network.transmissions_cons_of_none rfl h₂).trans hsilent
    have hextend := (takeSteps_walks hprimary hsteps).extend hearlier (hout.quiet hsilent) []
    rw [List.append_nil] at hextend
    exact .inr hextend

/-- A run that comes to a report either takes its steps or has had no socket to probe from. -/
theorem run_walks {stamp : Stamp} {report : Report} (hr : (c.run stamp).Runs net w h (.ok report) w') :
    (report.localAddress = none ∧ report.steps = [.reachability]) ∨
      Walks c net w h report.localAddress ⟨report.findings, report.classification⟩ := by
  obtain ⟨t, h₁, h₂, ht, rfl, ⟨f, -, -, hf⟩ | ⟨trail, rfl, -, hreport⟩⟩ := run_runs hr
  · cases hf
  cases hreport
  refine (trail_walks ht).imp id fun hw => ?_
  exact hw.extend (show transmissions [⟨w, .clock, w.clock⟩] = [] from rfl) (.refl w) h₂

end Client

end NatBehaviour.Discovery
