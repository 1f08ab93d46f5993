import NatBehaviour.Proofs.Discovery.Steps
import NatBehaviour.Proofs.Probe.Attempts
import NatBehaviour.Proofs.Responder.Relay

/-!
What a discovery takes for evidence is evidence, even if the network loses, delays, reorders and copies
datagrams. Messages carry nothing that ties a reply to an attempt, nobody looks at the kind of a reply,
and no inbox is ever emptied on purpose; so a reply can well be late and be read by a later step. It
counts there only if it comes from the listener which that step expects, and of all the requests sent up
to then only those of the step's own kind make that listener reply.
-/

namespace NatBehaviour.Discovery

open NatBehaviour.Net (Ip Endpoint)
open NatBehaviour.Network (Host Moment Program SocketAddress Transmission World)
open NatBehaviour.Probe (Batch Datagram Filter Outcome)
open NatBehaviour.Responder (AnsweredFor Attributed Caused loopbackListeners relay replyPlan
  restrictingRelay)
open NatBehaviour.Wire (Kind Listeners Message Role)

namespace Step

/-- Of some kinds of requests, only the step's own makes the expected listener reply. -/
def Distinguishes (step : Step) (kinds : List Kind) : Prop :=
  step.kind ∈ kinds ∧ ∀ kind ∈ kinds, step.expected ∈ replyPlan kind .primary → kind = step.kind

instance (step : Step) (kinds : List Kind) : Decidable (step.Distinguishes kinds) :=
  inferInstanceAs (Decidable (_ ∧ _))

end Step

/-- A network that may lose, delay, reorder and copy datagrams in any way, but neither changes,
misroutes nor makes up one: whatever arrives was sent by the responder because of this or an earlier
transmission, to where that came from. -/
def Faithful (net : Network) (server : Listeners Endpoint)
    (saw : Transmission → Endpoint → Prop) : Prop :=
  ∀ log t, AnsweredFor net server saw (fun _ => True) log t

/-- A relay changes nothing, whatever it drops, delays and copies. -/
theorem relay_faithful {host : Host} {server : Listeners Endpoint} {seen : Endpoint → Endpoint}
    {passes : List (Transmission × Bool) → Transmission → Role → Bool} {delays : List Nat} :
    Faithful (relay host server seen passes delays) server fun t source => source = seen t.source := by
  intro log t rs hcarry r hr
  simp only [relay, Host.network] at hcarry
  split at hcarry
  · cases hcarry
    split at hr
    · rename_i hdest
      obtain ⟨hback, -, s, hsent, -, hd⟩ := Responder.mem_relayed hr
      have hprimary : server.get .primary = t.destination := hdest.symm
      exact ⟨t, s.role, .inl rfl, hback, trivial, hd ▸ .intro rfl hprimary hsent⟩
    · cases hr
  · cases hcarry

section

variable (server : Listeners Endpoint) (saw : Transmission → Endpoint → Prop)

/-- A reply that a socket reads is evidence for a step. The same socket has sent a request of the step's
own kind before, the responder has seen where from, and the reply says so; it was sent because of that
request, by the listener that the step expects. -/
def Evidence (step : Step) (w : World) (x : SocketAddress) (m : Message) : Prop :=
  ∃ t source, (t, true) ∈ w.log ∧ t.source = x ∧ t.destination = server.primary ∧
    t.payload = (Message.request step.kind).encode ∧ saw t source ∧ m = .reply step.kind source ∧
    w.Holds x ⟨server.get step.expected, m.encode⟩ ∧
    Caused server saw t step.expected ⟨server.get step.expected, m.encode⟩

/-- A reply is accepted in an attempt of some step, as evidence for that very step. -/
structure Acceptance (step : Step) (w : World) (x : SocketAddress) (f : Filter) (m : Message) :
    Prop where
  filter : f = .only (server.get step.expected)
  /-- The attempt has just sent its own request. -/
  asked : ∃ t, w.log.head? = some (t, true) ∧ t.source = x ∧ t.destination = server.primary ∧
    t.payload = (Message.request step.kind).encode
  evidence : Evidence server saw step w x m

/-- Every reply that is accepted in a run is evidence for the step that accepts it. -/
def Sound (h : List Moment) : Prop :=
  ∀ w x timeout f m, ⟨w, .await x timeout f, .reply m⟩ ∈ h → ∃ step, Acceptance server saw step w x f m

/-- A socket has read an address in a run, from a reply that is evidence. -/
def ReadIn (h : List Moment) (step : Step) (x : SocketAddress) (a : String) : Prop :=
  ∃ w timeout m, ⟨w, .await x timeout (.only (server.get step.expected)), .reply m⟩ ∈ h ∧
    m.observed = some a ∧ Evidence server saw step w x m

/-- Every entry of an outcome was read in a run, from a reply that is evidence. -/
def Genuine (h : List Moment) (step : Step) (x : SocketAddress) (o : Outcome) : Prop :=
  ∀ a ∈ o.observed, ReadIn server saw h step x a

/-- A run binds a socket to some address. -/
def BoundIn (h : List Moment) (x : SocketAddress) : Prop :=
  ∃ w address, ⟨w, .bind address, .ok x⟩ ∈ h

/-- The outcomes of a finding are genuine: one of the first socket, or one each of two sockets. -/
inductive GenuineFinding (h : List Moment) (first : SocketAddress) : Finding → Prop
  | unprobed (step : Step) (verdict : String) : GenuineFinding h first ⟨step, [], verdict⟩
  | probed {step : Step} {o : Outcome} (verdict : String) (genuine : Genuine server saw h step first o) :
    GenuineFinding h first ⟨step, [o], verdict⟩
  | compared {second : SocketAddress} {a b : Outcome} (verdict : String) (bound : BoundIn h second)
      (genuine : Genuine server saw h .symmetricNat first a)
      (other : Genuine server saw h .symmetricNat second b) :
    GenuineFinding h first ⟨.symmetricNat, [a, b], verdict⟩

end

variable {server : Listeners Endpoint} {saw : Transmission → Endpoint → Prop} {net : Network}
  {w w' : World} {h h' : List Moment} {step : Step} {x : SocketAddress}

/-! ## Putting runs together -/

theorem Sound.nil : Sound server saw [] := fun _ _ _ _ _ hm => absurd hm List.not_mem_nil

theorem Sound.append (hs : Sound server saw h) (hs' : Sound server saw h') :
    Sound server saw (h ++ h') := by
  intro w x timeout f m hm
  rcases List.mem_append.mp hm with hm | hm
  · exact hs w x timeout f m hm
  · exact hs' w x timeout f m hm

/-- Moments at which nobody waits do not matter. -/
theorem Sound.cons {moment : Moment} (hs : Sound server saw h)
    (hm : moment.action.waits = false) : Sound server saw (moment :: h) := by
  intro w x timeout f m hmem
  rcases List.mem_cons.mp hmem with rfl | hmem
  · cases hm
  · exact hs w x timeout f m hmem

theorem ReadIn.mono {a : String} (hr : ReadIn server saw h step x a) (hh : h ⊆ h') :
    ReadIn server saw h' step x a := by
  obtain ⟨w, timeout, m, hm, rest⟩ := hr
  exact ⟨w, timeout, m, hh hm, rest⟩

theorem Genuine.mono {o : Outcome} (hg : Genuine server saw h step x o) (hh : h ⊆ h') :
    Genuine server saw h' step x o := fun a ha => (hg a ha).mono hh

theorem GenuineFinding.mono {f : Finding} (hg : GenuineFinding server saw h x f) (hh : h ⊆ h') :
    GenuineFinding server saw h' x f := by
  cases hg with
  | unprobed step verdict => exact .unprobed step verdict
  | probed verdict genuine => exact .probed verdict (genuine.mono hh)
  | compared verdict bound genuine other =>
    obtain ⟨w, address, hb⟩ := bound
    exact .compared verdict ⟨w, address, hh hb⟩ (genuine.mono hh) (other.mono hh)

/-! ## Batches -/

/-- Whoever has sent requests of some kinds only takes the replies for what they are, where the step's
own kind is the one of these for which the expected listener replies. -/
theorem evidence_of_judged {kinds : List Kind} {passes : Role → Prop} {d : Datagram} {m : Message}
    (hserver : Function.Injective server.get) (hstep : step.Distinguishes kinds)
    (hinv : Attributed server saw passes kinds w) (hd : w.Holds x d)
    (hj : (Filter.only (server.get step.expected)).judge d = .usable m) :
    Evidence server saw step w x m := by
  obtain ⟨t, kind, source, ht, hsource, hdest, hpayload, hkind, hseen, hplan, -, hreply, rfl⟩ :=
    hinv.judged hserver hd hj
  have hown : kind = step.kind := hstep.2 kind hkind hplan
  subst hown
  have hcaused : Caused server saw t step.expected ⟨server.get step.expected, m.encode⟩ := by
    rw [Responder.caused_request hserver hdest hpayload]
    exact ⟨source, hseen, hplan, by rw [hreply]⟩
  exact ⟨t, source, ht, hsource, hdest, hpayload, hseen, hreply, hd, hcaused⟩

/-- What a piece of evidence says is read where it is accepted. -/
theorem Evidence.readIn {timeout : Nat} {m : Message} (he : Evidence server saw step w x m)
    (hm : ⟨w, .await x timeout (.only (server.get step.expected)), .reply m⟩ ∈ h) :
    ReadIn server saw h step x (m.observed.getD "") := by
  have hobserved : m.observed = some (m.observed.getD "") := by
    obtain ⟨t, source, -, -, -, -, -, rfl, -⟩ := he
    rfl
  exact ⟨w, timeout, m, hm, hobserved, he⟩

section Batches

variable {s : Session} {kinds : List Kind} {o o' : Outcome}
  (hserver : Function.Injective s.server.get) (hnet : Faithful net s.server saw)
  (hstep : step.Distinguishes kinds)

include hserver hnet hstep

/-- What one attempt accepts is evidence, whatever was sent before. -/
theorem attempt_genuine (hinv : Attributed s.server saw (fun _ => True) kinds w)
    (hr : ((s.batch x step.kind step.expected).attempt o).Runs net w h o' w') :
    Attributed s.server saw (fun _ => True) kinds w' ∧ Sound s.server saw h ∧
      ∀ a ∈ o'.observed, a ∈ o.observed ∨ ReadIn s.server saw h step x a := by
  rcases Batch.attempt_runs hr with ⟨hsend, rfl, rfl⟩ | ⟨w₁, r, hsend, hawait, rfl, rfl⟩
  · exact ⟨hinv.send hstep.1 (hnet _ _) hsend, Sound.nil.cons rfl, fun a ha => .inl ha⟩
  have hinv₁ := hinv.send hstep.1 (hnet _ _) hsend
  obtain ⟨hlater, hheld⟩ := World.await_sound hawait
  have hasked : ∃ t, w₁.log.head? = some (t, true) ∧ t.source = x ∧
      t.destination = s.server.primary ∧ t.payload = (Message.request step.kind).encode := by
    obtain ⟨rs, -, hresponded⟩ := World.send_true hsend
    exact ⟨_, by rw [hresponded.log]; rfl, rfl, rfl, rfl⟩
  have hevidence : ∀ m, r = .reply m → Evidence s.server saw step w₁ x m := by
    intro m hm
    obtain ⟨d, hd, hj⟩ := hheld m hm
    exact evidence_of_judged hserver hstep hinv₁ hd hj
  refine ⟨hinv₁.quiet hlater.toQuiet, ?_, ?_⟩
  · intro w₂ y timeout f m hm
    rcases List.mem_cons.mp hm with hm | hm
    · cases hm
    · cases List.mem_singleton.mp hm
      exact ⟨step, rfl, hasked, hevidence m rfl⟩
  · intro a ha
    rw [Batch.observed_count] at ha
    cases r with
    | reply m =>
      rcases List.mem_append.mp ha with ha | ha
      · exact .inl ha
      · rw [List.mem_singleton.mp ha]
        exact .inr ((hevidence m rfl).readIn (List.mem_cons_of_mem _ List.mem_cons_self))
    | onlyUndecodable => exact .inl ha
    | nothing => exact .inl ha

theorem attemptTimes_genuine {n : Nat} (hinv : Attributed s.server saw (fun _ => True) kinds w)
    (hr : ((s.batch x step.kind step.expected).attemptTimes n o).Runs net w h o' w') :
    Attributed s.server saw (fun _ => True) kinds w' ∧ Sound s.server saw h ∧
      ∀ a ∈ o'.observed, a ∈ o.observed ∨ ReadIn s.server saw h step x a := by
  induction n generalizing w h o with
  | zero =>
    obtain ⟨rfl, rfl, rfl⟩ := Batch.attemptTimes_runs_zero hr
    exact ⟨hinv, .nil, fun a ha => .inl ha⟩
  | succ n ih =>
    obtain ⟨h₁, h₂, o₁, w₁, rfl, hfirst, hrest⟩ := Batch.attemptTimes_runs_succ hr
    obtain ⟨hinv₁, hsound₁, hread₁⟩ := attempt_genuine hserver hnet hstep hinv hfirst
    obtain ⟨hinv₂, hsound₂, hread₂⟩ := ih hinv₁ hrest
    refine ⟨hinv₂, hsound₁.append hsound₂, ?_⟩
    intro a ha
    rcases hread₂ a ha with ha | ha
    · rcases hread₁ a ha with ha | ha
      · exact .inl ha
      · exact .inr (ha.mono (List.subset_append_left h₁ h₂))
    · exact .inr (ha.mono (List.subset_append_right h₁ h₂))

/-- A batch of a step is sound, and its outcome is genuine. -/
theorem batch_genuine (hinv : Attributed s.server saw (fun _ => True) kinds w)
    (hr : (s.batch x step.kind step.expected).run.Runs net w h o w') :
    Attributed s.server saw (fun _ => True) kinds w' ∧ Sound s.server saw h ∧
      Genuine s.server saw h step x o := by
  obtain ⟨hinv', hsound, hread⟩ := attemptTimes_genuine hserver hnet hstep hinv hr
  exact ⟨hinv', hsound, fun a ha => (hread a ha).resolve_left List.not_mem_nil⟩

end Batches

/-! ## Steps -/

/-- What a run of some steps comes to is backed by what was read in it. -/
def Backed (server : Listeners Endpoint) (saw : Transmission → Endpoint → Prop) (h : List Moment)
    (first : SocketAddress) (r : Attempted Course) : Prop :=
  ∀ c, r = .ok c → ∀ f ∈ c.findings, GenuineFinding server saw h first f

theorem Backed.concluded {o : Outcome} {verdict : String} {k : Classification}
    (hg : Genuine server saw h step x o) :
    Backed server saw h x (.ok (.concluded step [o] verdict k)) := by
  intro c hc f hf
  cases hc
  obtain rfl := List.mem_singleton.mp hf
  exact .probed verdict hg

theorem Backed.after {outcomes : List Outcome} {verdict : String} {r : Attempted Course}
    (hb : Backed server saw h' x r) (hg : GenuineFinding server saw h x ⟨step, outcomes, verdict⟩) :
    Backed server saw (h ++ h') x (r.map (·.after step outcomes verdict)) := by
  cases r with
  | error f =>
    intro c hc
    cases hc
  | ok rest =>
    intro c hc f hf
    cases hc
    rcases List.mem_cons.mp hf with rfl | hf
    · exact hg.mono (List.subset_append_left h h')
    · exact (hb rest rfl f hf).mono (List.subset_append_right h h')

section Steps

variable {s : Session} (hserver : Function.Injective s.server.get) (hnet : Faithful net s.server saw)

include hserver hnet

/-- A step that is the first one to send requests of its kind. -/
theorem probe_genuine {kinds : List Kind} {o : Outcome}
    (hstep : step.Distinguishes (step.kind :: kinds))
    (hinv : Attributed s.server saw (fun _ => True) kinds w)
    (hr : (s.probe step.kind step.expected).Runs net w h o w') :
    Attributed s.server saw (fun _ => True) (step.kind :: kinds) w' ∧ Sound s.server saw h ∧
      Genuine s.server saw h step s.socket o := by
  have hmore : Attributed s.server saw (fun _ => True) (step.kind :: kinds) w :=
    hinv.mono fun _ hk => List.mem_cons_of_mem _ hk
  exact batch_genuine hserver hnet hstep hmore hr

theorem portRestriction_genuine {c : Course}
    (hinv : Attributed s.server saw (fun _ => True) [.fullConeCheck, .ping] w)
    (hr : s.portRestriction.Runs net w h c w') :
    Sound s.server saw h ∧ Backed s.server saw h s.socket (.ok c) := by
  obtain ⟨o, ho, rfl⟩ := Session.portRestriction_runs hr
  have hstep : Step.portRestriction.Distinguishes [.portRestrictedCheck, .fullConeCheck, .ping] := by
    decide
  obtain ⟨-, hsound, hg⟩ := probe_genuine hserver hnet hstep hinv ho
  refine ⟨hsound, ?_⟩
  split
  · exact .concluded hg
  · exact .concluded hg

theorem firewall_genuine {c : Course} (hinv : Attributed s.server saw (fun _ => True) [.ping] w)
    (hr : s.firewall.Runs net w h c w') :
    Sound s.server saw h ∧ Backed s.server saw h s.socket (.ok c) := by
  obtain ⟨o, ho, rfl⟩ := Session.firewall_runs hr
  have hstep : Step.firewall.Distinguishes [.publicCheck, .ping] := by decide
  obtain ⟨-, hsound, hg⟩ := probe_genuine hserver hnet hstep hinv ho
  refine ⟨hsound, ?_⟩
  split
  · exact .concluded hg
  · exact .concluded hg

theorem compared_genuine {a b : Outcome}
    (hinv : Attributed s.server saw (fun _ => True) [.fullConeCheck, .ping] w)
    (hc : Session.Compared net s w h a b w') :
    Attributed s.server saw (fun _ => True) [.fullConeCheck, .ping] w' ∧ Sound s.server saw h ∧
      ∀ verdict, GenuineFinding s.server saw h s.socket ⟨.symmetricNat, [a, b], verdict⟩ := by
  obtain @⟨second, w₁, w₂, w₃, h₁, h₂, _, _, hb, ha, ho⟩ := hc
  have hstep : Step.symmetricNat.Distinguishes [.fullConeCheck, .ping] := by decide
  have hinv₁ := hinv.quiet (World.quiet_bindSocket hb)
  obtain ⟨hinv₂, hsound₁, hfirst⟩ := batch_genuine hserver hnet hstep hinv₁ ha
  obtain ⟨hinv₃, hsound₂, hother⟩ := batch_genuine hserver hnet hstep hinv₂ ho
  refine ⟨hinv₃.quiet (World.quiet_closeSocket w₃ second), ?_, fun verdict => ?_⟩
  · refine .cons ((hsound₁.append hsound₂).append ?_) rfl
    exact Sound.nil.cons rfl
  · refine .compared verdict ⟨w, _, List.mem_cons_self⟩ (hfirst.mono ?_) (hother.mono ?_)
    · intro moment hm
      simp [hm]
    · intro moment hm
      simp [hm]

theorem symmetric_genuine {r : Attempted Course}
    (hinv : Attributed s.server saw (fun _ => True) [.fullConeCheck, .ping] w)
    (hr : s.symmetric.Runs net w h r w') :
    Sound s.server saw h ∧ Backed s.server saw h s.socket r := by
  rcases Session.symmetric_runs hr with ⟨e, -, rfl, rfl⟩ | ⟨a, b, w₁, h₁, h₂, rfl, hc, hpath⟩
  · refine ⟨Sound.nil.cons rfl, ?_⟩
    intro c hc
    cases hc
  obtain ⟨hinv₁, hsound₁, hfinding⟩ := compared_genuine hserver hnet hinv hc
  rcases hpath with ⟨-, c, hp, rfl⟩ | ⟨verdict, -, rfl, rfl, rfl⟩
  · obtain ⟨hsound₂, hbacked⟩ := portRestriction_genuine hserver hnet hinv₁ hp
    exact ⟨hsound₁.append hsound₂, hbacked.after (hfinding _)⟩
  · rw [List.append_nil]
    refine ⟨hsound₁, ?_⟩
    intro c hc f hf
    cases hc
    obtain rfl := List.mem_singleton.mp hf
    exact hfinding verdict

theorem fullCone_genuine {r : Attempted Course}
    (hinv : Attributed s.server saw (fun _ => True) [.ping] w) (hr : s.fullCone.Runs net w h r w') :
    Sound s.server saw h ∧ Backed s.server saw h s.socket r := by
  obtain ⟨o, w₁, h₁, h₂, rfl, ho, hpath⟩ := Session.fullCone_runs hr
  have hstep : Step.fullCone.Distinguishes [.fullConeCheck, .ping] := by decide
  obtain ⟨hinv₁, hsound₁, hg⟩ := probe_genuine hserver hnet hstep hinv ho
  rcases hpath with ⟨-, rfl, rfl, rfl⟩ | ⟨-, q, hs, rfl⟩
  · rw [List.append_nil]
    exact ⟨hsound₁, .concluded hg⟩
  · obtain ⟨hsound₂, hbacked⟩ := symmetric_genuine hserver hnet hinv₁ hs
    exact ⟨hsound₁.append hsound₂, hbacked.after (.probed _ hg)⟩

/-- A run of all steps, in a world in which nothing has been sent. -/
theorem reachability_genuine {r : Attempted Course}
    (hinv : Attributed s.server saw (fun _ => True) [] w) (hr : s.reachability.Runs net w h r w') :
    Sound s.server saw h ∧ Backed s.server saw h s.socket r := by
  obtain ⟨o, w₁, h₁, h₂, rfl, ho, hpath⟩ := Session.reachability_runs hr
  have hstep : Step.reachability.Distinguishes [.ping] := by decide
  obtain ⟨hinv₁, hsound₁, hg⟩ := probe_genuine hserver hnet hstep hinv ho
  rcases hpath with ⟨-, rfl, rfl, rfl⟩ | ⟨-, -, c, hf, rfl⟩ | ⟨-, -, q, hf, rfl⟩
  · rw [List.append_nil]
    exact ⟨hsound₁, .concluded hg⟩
  · obtain ⟨hsound₂, hbacked⟩ := firewall_genuine hserver hnet hinv₁ hf
    exact ⟨hsound₁.append hsound₂, hbacked.after (.probed _ hg)⟩
  · obtain ⟨hsound₂, hbacked⟩ := fullCone_genuine hserver hnet hinv₁ hf
    exact ⟨hsound₁.append hsound₂, hbacked.after (.probed _ hg)⟩

end Steps

/-! ## Clients -/

namespace Client

/-- The findings are those of a run without a socket, or they are backed by what was read in it. -/
def BackedTrail (server : Listeners Endpoint) (saw : Transmission → Endpoint → Prop)
    (h : List Moment) (own : Option String) (findings : List Finding) : Prop :=
  (own = none ∧ ∀ f ∈ findings, f.outcomes = []) ∨
    ∃ first, own = some first.text ∧ BoundIn h first ∧
      ∀ f ∈ findings, GenuineFinding server saw h first f

theorem BackedTrail.mono {own : Option String} {findings : List Finding}
    (hb : BackedTrail server saw h own findings) (hh : h ⊆ h') :
    BackedTrail server saw h' own findings := by
  rcases hb with hb | ⟨first, hown, ⟨w, address, hbound⟩, hg⟩
  · exact .inl hb
  · exact .inr ⟨first, hown, ⟨w, address, hh hbound⟩, fun f hf => (hg f hf).mono hh⟩

theorem backedTrail_unreachable (h : List Moment) (verdict : String) :
    BackedTrail server saw h (Trail.unreachable verdict).localAddress
      (Trail.unreachable verdict).course.findings := by
  refine .inl ⟨rfl, ?_⟩
  intro f hf
  rw [List.mem_singleton.mp hf]

section Trails

variable {c : Client} {primary : Endpoint} {r : Attempted Trail}
  (hserver : Function.Injective (c.listenersAt primary).get)
  (hnet : Faithful net (c.listenersAt primary) saw)

include hserver hnet

theorem takeSteps_genuine {localIp : Ip}
    (hinv : Attributed (c.listenersAt primary) saw (fun _ => True) [] w)
    (hr : (c.takeSteps (c.listenersAt primary) localIp).Runs net w h r w') :
    Sound (c.listenersAt primary) saw h ∧ ∀ t, r = .ok t →
      BackedTrail (c.listenersAt primary) saw h t.localAddress t.course.findings := by
  rcases takeSteps_runs hr with ⟨e, -, rfl, rfl⟩ | ⟨socket, w₁, h₁, q, w₂, hb, hq, -, rfl, rfl⟩
  · refine ⟨Sound.nil.cons rfl, ?_⟩
    intro t ht
    cases ht
  obtain ⟨hsound, hbacked⟩ :=
    reachability_genuine hserver hnet (hinv.quiet (World.quiet_bindSocket hb)) hq
  refine ⟨(hsound.append (Sound.nil.cons rfl)).cons rfl, ?_⟩
  intro t ht
  cases q with
  | error f => cases ht
  | ok course =>
    cases ht
    refine .inr ⟨socket, rfl, ⟨w, _, List.mem_cons_self⟩, ?_⟩
    intro f hf
    refine (hbacked course rfl f hf).mono ?_
    intro moment hm
    exact List.mem_cons_of_mem _ (List.mem_append_left _ hm)

theorem trail_genuine
    (hresolve : preferred? (net.resolve c.settings.serverHost c.settings.ports.primary) = some primary)
    (hinv : Attributed (c.listenersAt primary) saw (fun _ => True) [] w)
    (hr : c.trail.Runs net w h r w') :
    Sound (c.listenersAt primary) saw h ∧ ∀ t, r = .ok t →
      BackedTrail (c.listenersAt primary) saw h t.localAddress t.course.findings := by
  obtain ⟨h₁, rfl, hunresolved | ⟨primary', hp, h₂, h₃, q, w₁, rfl, ho, hpath⟩⟩ := trail_runs hr
  · rw [hresolve] at hunresolved
    cases hunresolved.1
  obtain rfl : primary = primary' := Option.some.inj (hresolve.symm.trans hp)
  have hroute : Sound (c.listenersAt primary) saw h₂ ∧ w.Quiet w₁ := by
    rcases outboundIp_runs ho with ⟨e, hb, rfl, -⟩ | ⟨socket, w₂, hb, rfl, -, rfl⟩
    · exact ⟨Sound.nil.cons rfl, World.quiet_bindSocket hb⟩
    · exact ⟨((Sound.nil.cons rfl).cons rfl).cons rfl,
        (World.quiet_bindSocket hb).trans (World.quiet_closeSocket w₂ socket)⟩
  have hsound : ∀ {h' : List Moment}, Sound (c.listenersAt primary) saw h' →
      Sound (c.listenersAt primary) saw (⟨w, .resolve c.settings.serverHost c.settings.ports.primary,
        net.resolve c.settings.serverHost c.settings.ports.primary⟩ :: (h₂ ++ h')) :=
    fun hs => (hroute.1.append hs).cons rfl
  rcases hpath with ⟨f, -, rfl, -, rfl⟩ | ⟨-, rfl, -, rfl⟩ | ⟨localIp, -, hsteps⟩
  · refine ⟨hsound .nil, ?_⟩
    intro t ht
    cases ht
  · refine ⟨hsound .nil, ?_⟩
    intro t ht
    cases ht
    exact backedTrail_unreachable _ _
  · obtain ⟨hsound₃, hbacked⟩ := takeSteps_genuine hserver hnet (hinv.quiet hroute.2) hsteps
    refine ⟨hsound hsound₃, fun t ht => (hbacked t ht).mono ?_⟩
    intro moment hm
    exact List.mem_cons_of_mem _ (List.mem_append_right _ hm)

end Trails

/-- Whoever runs a client against a responder, over a network that loses, delays, reorders and copies
datagrams: every reply that is accepted at any time is evidence for the step that accepts it, and every
entry of every outcome in the report was read from such a reply, by the socket whose outcome it is. -/
theorem evidence_genuine {c : Client} {stamp : Stamp} {taken : List Endpoint} {primary : Endpoint}
    {r : Attempted Report}
    (hresolve : preferred? (net.resolve c.settings.serverHost c.settings.ports.primary) = some primary)
    (hport : primary.port = c.settings.ports.primary)
    (hports : ∀ p ∈ c.settings.ports.toList, p ≠ 0)
    (hnet : Faithful net (c.listenersAt primary) saw)
    (hr : (c.run stamp).Runs net (.start taken) h r w') :
    Sound (c.listenersAt primary) saw h ∧ ∀ report, r = .ok report →
      (report.localAddress = none ∧ ∀ f ∈ report.findings, f.outcomes = []) ∨
        ∃ first, report.localAddress = some first.text ∧ BoundIn h first ∧
          ∀ f ∈ report.findings, GenuineFinding (c.listenersAt primary) saw h first f := by
  have hserver := c.listenersAt_injective hport hports
  obtain ⟨t, h₁, h₂, ht, rfl, hend⟩ := run_runs hr
  obtain ⟨hsound, hbacked⟩ := trail_genuine hserver hnet hresolve (.start taken) ht
  rcases hend with ⟨f, rfl, rfl, rfl⟩ | ⟨trail, rfl, rfl, rfl⟩
  · refine ⟨(hsound.append .nil).cons rfl, ?_⟩
    intro report hreport
    cases hreport
  · refine ⟨(hsound.append (Sound.nil.cons rfl)).cons rfl, ?_⟩
    intro report hreport
    cases hreport
    refine (hbacked trail rfl).mono ?_
    intro moment hm
    exact List.mem_cons_of_mem _ (List.mem_append_left _ hm)

/-- Every reply arrives twice, the second time during a later attempt or step. -/
theorem evidence_genuine_late :
    ∃ h report w', (Client.default.run ⟨⟨0⟩, 0⟩).Runs (restrictingRelay [20, 6000]) (.start []) h
        (.ok report) w' ∧ report.classification = .restricted ∧
      Sound loopbackListeners (fun _ source => source = .v4 ⟨203, 0, 113, 7⟩ 9) h ∧
      ∃ first, report.localAddress = some first.text ∧ BoundIn h first ∧ ∀ f ∈ report.findings,
        GenuineFinding loopbackListeners (fun _ source => source = .v4 ⟨203, 0, 113, 7⟩ 9) h first f := by
  have hresult : ((Client.default.run ⟨⟨0⟩, 0⟩).run (restrictingRelay [20, 6000])
      (.start [])).1.toOption.map (fun r => (r.classification, r.localAddress)) =
        some (.restricted, some "127.0.0.1:32768") := by decide +kernel
  obtain ⟨h, r, w', hruns⟩ : ∃ h r w', (Client.default.run ⟨⟨0⟩, 0⟩).Runs (restrictingRelay [20, 6000])
      (.start []) h r w' := Program.exists_runs _ _
  rw [hruns.run] at hresult
  cases r with
  | error f => cases hresult
  | ok report =>
    obtain ⟨hk, hlocal⟩ := Prod.mk.inj (Option.some.inj hresult)
    have hnet : Faithful (restrictingRelay [20, 6000])
        (Client.default.listenersAt (.v4 .loopback 3478))
        (fun _ source => source = .v4 ⟨203, 0, 113, 7⟩ 9) := relay_faithful
    obtain ⟨hsound, hbacked⟩ := evidence_genuine rfl rfl default_ports hnet hruns
    refine ⟨h, report, w', hruns, hk, hsound, ?_⟩
    rcases hbacked report rfl with ⟨hnone, -⟩ | hbacked
    · cases hnone.symm.trans hlocal
    · exact hbacked

end Client

end NatBehaviour.Discovery
