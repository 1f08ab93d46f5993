import NatBehaviour.Discovery.Client
import NatBehaviour.Proofs.Network.Runs

/-!
Runs of a discovery, taken apart into the batches of probes that they consist of. There is one lemma for
each function; it says which batches run in which worlds, and what their outcomes come to.
-/

namespace NatBehaviour.Discovery

open NatBehaviour.Net (Ip Endpoint)
open NatBehaviour.Network (Moment Program SocketAddress World)
open NatBehaviour.Probe (Outcome)
open NatBehaviour.Wire (Kind Listeners Role)

variable {net : Network} {w w' : World} {h : List Moment}

/-! ## Sockets -/

theorem bindProbeSocket_runs {ip : Ip} {port : UInt16} {r : Attempted SocketAddress}
    (hr : (bindProbeSocket ip port).Runs net w h r w') :
    (∃ e, w.bindSocket net (.of ip port) = (.error e, w') ∧
      h = [⟨w, .bind (.of ip port), .error e⟩] ∧ r = .error (.bind (.probe (.of ip port) e))) ∨
    ∃ socket, w.bindSocket net (.of ip port) = (.ok socket, w') ∧
      h = [⟨w, .bind (.of ip port), .ok socket⟩] ∧ r = .ok socket := by
  obtain ⟨h₁, h₂, bound, w₁, rfl, hb, rest⟩ := hr.bind
  obtain ⟨rfl, hw⟩ := hb.perform
  cases bound with
  | error e =>
    obtain ⟨rfl, rfl, rfl⟩ := rest.pure
    exact .inl ⟨e, hw, rfl, rfl⟩
  | ok socket =>
    obtain ⟨rfl, rfl, rfl⟩ := rest.pure
    exact .inr ⟨socket, hw, rfl, rfl⟩

/-- A program with a socket of its own: either the socket cannot be bound, or it is bound, used and
closed. -/
theorem withSocket_runs {α : Type} {ip : Ip} {port : UInt16}
    {use : SocketAddress → Program (Attempted α)} {r : Attempted α}
    (hr : (withSocket ip port use).Runs net w h r w') :
    (∃ e, w.bindSocket net (.of ip port) = (.error e, w') ∧
      h = [⟨w, .bind (.of ip port), .error e⟩] ∧ r = .error (.bind (.probe (.of ip port) e))) ∨
    ∃ socket w₁ h₁ w₂, w.bindSocket net (.of ip port) = (.ok socket, w₁) ∧
      (use socket).Runs net w₁ h₁ r w₂ ∧ w' = w₂.closeSocket socket ∧
      h = ⟨w, .bind (.of ip port), .ok socket⟩ :: (h₁ ++ [⟨w₂, .close socket, ()⟩]) := by
  obtain ⟨h₁, h₂, bound, w₁, rfl, hb, rest⟩ := hr.bind
  rcases bindProbeSocket_runs hb with ⟨e, hw, rfl, rfl⟩ | ⟨socket, hw, rfl, rfl⟩
  · obtain ⟨rfl, rfl, rfl⟩ := rest.pure
    exact .inl ⟨e, hw, rfl, rfl⟩
  · obtain ⟨h₃, h₄, result, w₂, rfl, hu, hclosing⟩ := rest.bind
    obtain ⟨h₅, h₆, u, w₃, rfl, hc, hdone⟩ := hclosing.bind
    obtain ⟨rfl, hw₃⟩ := hc.perform
    obtain ⟨rfl, rfl, rfl⟩ := hdone.pure
    have hclose : w₂.closeSocket socket = w' := congrArg Prod.snd hw₃
    exact .inr ⟨socket, w₁, h₃, w₂, hw, hu, hclose.symm, rfl⟩

/-! ## Steps -/

namespace Step

/-- The kind of request that a step sends. -/
def kind : Step → Kind
  | .reachability | .symmetricNat => .ping
  | .firewall => .publicCheck
  | .fullCone => .fullConeCheck
  | .portRestriction => .portRestrictedCheck

/-- The listener whose replies a step accepts. -/
def expected : Step → Role
  | .reachability | .symmetricNat => .primary
  | .firewall | .fullCone => .secondary
  | .portRestriction => .tertiary

end Step

namespace Session

variable {s : Session}

theorem portRestriction_runs {c : Course} (hr : s.portRestriction.Runs net w h c w') :
    ∃ o, (s.probe .portRestrictedCheck .tertiary).Runs net w h o w' ∧
      c = if o.gotReply then
          .concluded .portRestriction [o] Verdict.tertiaryPortReached .restricted
        else .concluded .portRestriction [o] Verdict.tertiaryPortBlocked .portRestricted :=
  hr.bind_ite

theorem firewall_runs {c : Course} (hr : s.firewall.Runs net w h c w') :
    ∃ o, (s.probe .publicCheck .secondary).Runs net w h o w' ∧
      c = if o.gotReply then
          .concluded .firewall [o] Verdict.alternatePortReached .openInternet
        else .concluded .firewall [o] Verdict.alternatePortBlocked .symmetricFirewall :=
  hr.bind_ite

/-- A run in which a second socket is bound, the mappings of both are observed, and the second one is
closed. -/
inductive Compared (net : Network) (s : Session) (w : World) :
    List Moment → Outcome → Outcome → World → Prop
  | intro {second : SocketAddress} {w₁ w₂ w₃ : World} {h₁ h₂ : List Moment} {a b : Outcome}
      (bound : w.bindSocket net (.of s.localIp 0) = (.ok second, w₁))
      (first : (s.probe .ping .primary).Runs net w₁ h₁ a w₂)
      (other : (s.batch second .ping .primary).run.Runs net w₂ h₂ b w₃) :
      Compared net s w (⟨w, .bind (.of s.localIp 0), .ok second⟩ ::
        (h₁ ++ h₂ ++ [⟨w₃, .close second, ()⟩])) a b (w₃.closeSocket second)

theorem observeMappings_runs {r : Attempted (Outcome × Outcome)}
    (hr : s.observeMappings.Runs net w h r w') :
    (∃ e, w.bindSocket net (.of s.localIp 0) = (.error e, w') ∧
      h = [⟨w, .bind (.of s.localIp 0), .error e⟩] ∧
      r = .error (.bind (.probe (.of s.localIp 0) e))) ∨
    ∃ a b, Compared net s w h a b w' ∧ r = .ok (a, b) := by
  rcases withSocket_runs hr with hfail | ⟨second, w₁, h₁, w₂, hb, hu, rfl, rfl⟩
  · exact .inl hfail
  · obtain ⟨h₂, h₃, a, w₃, rfl, ha, hu⟩ := hu.bind
    obtain ⟨h₄, h₅, b, w₄, rfl, hb', hu⟩ := hu.bind
    obtain ⟨rfl, rfl, rfl⟩ := hu.pure
    rw [List.append_nil]
    exact .inr ⟨a, b, .intro hb ha hb', rfl⟩

theorem symmetric_runs {r : Attempted Course} (hr : s.symmetric.Runs net w h r w') :
    (∃ e, w.bindSocket net (.of s.localIp 0) = (.error e, w') ∧
      h = [⟨w, .bind (.of s.localIp 0), .error e⟩] ∧
      r = .error (.bind (.probe (.of s.localIp 0) e))) ∨
    ∃ a b w₁ h₁ h₂, h = h₁ ++ h₂ ∧ Compared net s w h₁ a b w₁ ∧
      ((compareMappings a b = .ok () ∧ ∃ c, s.portRestriction.Runs net w₁ h₂ c w' ∧
          r = .ok (c.after .symmetricNat [a, b] Verdict.sameMapping)) ∨
        ∃ verdict, compareMappings a b = .error verdict ∧ h₂ = [] ∧ w' = w₁ ∧
          r = .ok (.concluded .symmetricNat [a, b] verdict .symmetricNat)) := by
  obtain ⟨h₁, h₂, mappings, w₁, rfl, hm, rest⟩ := hr.bind
  rcases observeMappings_runs hm with ⟨e, hw, rfl, rfl⟩ | ⟨a, b, hc, rfl⟩
  · obtain ⟨rfl, rfl, rfl⟩ := rest.pure
    exact .inl ⟨e, hw, rfl, rfl⟩
  · refine .inr ⟨a, b, w₁, h₁, h₂, rfl, hc, ?_⟩
    simp only at rest
    split at rest
    · rename_i hsame
      exact .inl ⟨hsame, rest.bind_pure⟩
    · rename_i verdict hdiffer
      obtain ⟨rfl, rfl, rfl⟩ := rest.pure
      exact .inr ⟨verdict, hdiffer, rfl, rfl, rfl⟩

theorem fullCone_runs {r : Attempted Course} (hr : s.fullCone.Runs net w h r w') :
    ∃ o w₁ h₁ h₂, h = h₁ ++ h₂ ∧ (s.probe .fullConeCheck .secondary).Runs net w h₁ o w₁ ∧
      ((o.gotReply = true ∧ h₂ = [] ∧ w' = w₁ ∧
          r = .ok (.concluded .fullCone [o] Verdict.alternatePortReached .fullCone)) ∨
        o.gotReply = false ∧ ∃ q, s.symmetric.Runs net w₁ h₂ q w' ∧
          r = q.map (·.after .fullCone [o] Verdict.alternatePortBlocked)) := by
  obtain ⟨h₁, h₂, o, w₁, rfl, ho, rest⟩ := hr.bind
  refine ⟨o, w₁, h₁, h₂, rfl, ho, ?_⟩
  split at rest
  · rename_i hreply
    obtain ⟨rfl, rfl, rfl⟩ := rest.pure
    exact .inl ⟨hreply, rfl, rfl, rfl⟩
  · rename_i hreply
    exact .inr ⟨Bool.eq_false_iff.mpr hreply, rest.bind_map (fun _ => rfl) fun _ => rfl⟩

theorem reachability_runs {r : Attempted Course} (hr : s.reachability.Runs net w h r w') :
    ∃ o w₁ h₁ h₂, h = h₁ ++ h₂ ∧ (s.probe .ping .primary).Runs net w h₁ o w₁ ∧
      ((o.gotReply = false ∧ h₂ = [] ∧ w' = w₁ ∧
          r = .ok (.concluded .reachability [o] (silence o) .unreachable)) ∨
        (o.gotReply = true ∧ o.everyAttemptMatched = true ∧ ∃ c, s.firewall.Runs net w₁ h₂ c w' ∧
          r = .ok (c.after .reachability [o] Verdict.localAddressEchoed)) ∨
        o.gotReply = true ∧ o.everyAttemptMatched = false ∧ ∃ q, s.fullCone.Runs net w₁ h₂ q w' ∧
          r = q.map (·.after .reachability [o] Verdict.mappedAddressDiffers)) := by
  obtain ⟨h₁, h₂, o, w₁, rfl, ho, rest⟩ := hr.bind
  refine ⟨o, w₁, h₁, h₂, rfl, ho, ?_⟩
  split at rest
  · rename_i hreply
    obtain ⟨rfl, rfl, rfl⟩ := rest.pure
    exact .inl ⟨by simpa using hreply, rfl, rfl, rfl⟩
  · rename_i hreply
    have hgot : o.gotReply = true := by simpa using hreply
    split at rest
    · rename_i hmatched
      exact .inr (.inl ⟨hgot, hmatched, rest.bind_pure⟩)
    · rename_i hmatched
      have hrest := rest.bind_map (f := (·.after .reachability [o] Verdict.mappedAddressDiffers))
        (fun _ => rfl) fun _ => rfl
      exact .inr (.inr ⟨hgot, Bool.eq_false_iff.mpr hmatched, hrest⟩)

end Session

/-! ## Clients -/

namespace Client

/-- A client with the default settings: three attempts of five seconds against a responder on the
loopback interface. -/
def default : Client := ⟨.default, rfl⟩

theorem default_ports : ∀ p ∈ default.settings.ports.toList, p ≠ 0 := by
  intro p hp
  have hp : p ∈ [3478, 3479, 3480] := hp
  grind

variable {c : Client}

/-- The listeners of a responder whose primary one is at some address. -/
def listenersAt (c : Client) (primary : Endpoint) : Listeners Endpoint :=
  ⟨primary, .of primary.ip c.settings.ports.secondary, .of primary.ip c.settings.ports.tertiary⟩

theorem repeated?_ports (c : Client) : Settings.repeated? c.settings.ports = none := by
  have hv := c.settings_valid
  unfold Settings.Probe.fault? at hv
  split at hv
  · cases hv
  split at hv
  · cases hv
  split at hv
  · cases hv
  simpa using hv

/-- Only port zero is shared by two listeners. -/
theorem zero_of_shared_port (c : Client) {a b : Role} (hne : a ≠ b)
    (hsame : c.settings.ports.get a = c.settings.ports.get b) : c.settings.ports.get a = 0 := by
  have hrepeated := c.repeated?_ports
  rw [Settings.repeated?] at hrepeated
  simp only [Listeners.toList] at hrepeated
  refine Decidable.byContradiction fun hzero => ?_
  cases a <;> cases b <;> grind [Listeners.get, Settings.firstRepeated?]

theorem ip_listenersAt (c : Client) (primary : Endpoint) (role : Role) :
    ((c.listenersAt primary).get role).ip = primary.ip := by
  cases role with
  | primary => rfl
  | secondary => exact Endpoint.ip_of _ _
  | tertiary => exact Endpoint.ip_of _ _

theorem port_listenersAt {primary : Endpoint} (hport : primary.port = c.settings.ports.primary)
    (role : Role) : ((c.listenersAt primary).get role).port = c.settings.ports.get role := by
  cases role with
  | primary => exact hport
  | secondary => exact Endpoint.port_of _ _
  | tertiary => exact Endpoint.port_of _ _

/-- Two listeners have the same address only if the ports of both are zero. -/
theorem zero_of_shared_address {primary : Endpoint} (hport : primary.port = c.settings.ports.primary)
    {a b : Role} (hne : a ≠ b) (hsame : (c.listenersAt primary).get a = (c.listenersAt primary).get b) :
    c.settings.ports.get a = 0 ∧ c.settings.ports.get b = 0 := by
  have hshared : c.settings.ports.get a = c.settings.ports.get b := by
    rw [← port_listenersAt hport, hsame, port_listenersAt hport]
  have hzero := c.zero_of_shared_port hne hshared
  exact ⟨hzero, hshared.symm.trans hzero⟩

/-- The three listeners have different addresses if no port is zero. -/
theorem listenersAt_injective {primary : Endpoint} (hport : primary.port = c.settings.ports.primary)
    (hports : ∀ p ∈ c.settings.ports.toList, p ≠ 0) :
    Function.Injective (c.listenersAt primary).get := by
  intro a b hsame
  refine Decidable.byContradiction fun hne => ?_
  have hmem : c.settings.ports.get a ∈ c.settings.ports.toList := by
    cases a <;> simp [Listeners.get, Listeners.toList]
  exact hports _ hmem (zero_of_shared_address hport hne hsame).1

/-- The address that the socket is bound to which shows the way to the server. -/
def routeAddress (server : Endpoint) : Endpoint :=
  .of (if server.isV4 then .v4 .unspecified else .v6 .unspecified) 0

theorem outboundIp_runs {server : Endpoint} {r : Attempted (Option Ip)}
    (hr : (outboundIp server).Runs net w h r w') :
    (∃ e, w.bindSocket net (routeAddress server) = (.error e, w') ∧
      h = [⟨w, .bind (routeAddress server), .error e⟩] ∧ r = .error (.bind (.route e))) ∨
    ∃ socket w₁, w.bindSocket net (routeAddress server) = (.ok socket, w₁) ∧
      h = [⟨w, .bind (routeAddress server), .ok socket⟩, ⟨w₁, .route socket server, net.route server⟩,
        ⟨w₁, .close socket, ()⟩] ∧
      r = .ok (net.route server) ∧ w' = w₁.closeSocket socket := by
  obtain ⟨h₁, h₂, bound, w₁, rfl, hb, rest⟩ := hr.bind
  obtain ⟨rfl, hw⟩ := hb.perform
  cases bound with
  | error e =>
    obtain ⟨rfl, rfl, rfl⟩ := rest.pure
    exact .inl ⟨e, hw, rfl, rfl⟩
  | ok socket =>
    obtain ⟨h₃, h₄, ip, w₂, rfl, hroute, hclosing⟩ := rest.bind
    obtain ⟨rfl, hw₂⟩ := hroute.perform
    obtain ⟨rfl, rfl⟩ := Prod.mk.inj hw₂
    obtain ⟨h₅, h₆, u, w₃, rfl, hclose, hdone⟩ := hclosing.bind
    obtain ⟨rfl, hw₃⟩ := hclose.perform
    obtain ⟨rfl, rfl, rfl⟩ := hdone.pure
    exact .inr ⟨socket, w₁, hw, rfl, rfl, (congrArg Prod.snd hw₃).symm⟩

theorem takeSteps_runs {server : Listeners Endpoint} {localIp : Ip} {r : Attempted Trail}
    (hr : (c.takeSteps server localIp).Runs net w h r w') :
    (∃ e, w.bindSocket net (.of localIp c.settings.localPort) = (.error e, w') ∧
      h = [⟨w, .bind (.of localIp c.settings.localPort), .error e⟩] ∧
      r = .error (.bind (.probe (.of localIp c.settings.localPort) e))) ∨
    ∃ socket w₁ h₁ q w₂, w.bindSocket net (.of localIp c.settings.localPort) = (.ok socket, w₁) ∧
      (Session.reachability ⟨c.settings, socket, localIp, server⟩).Runs net w₁ h₁ q w₂ ∧
      w' = w₂.closeSocket socket ∧ r = q.map (⟨some socket.text, ·⟩) ∧
      h = ⟨w, .bind (.of localIp c.settings.localPort), .ok socket⟩ ::
        (h₁ ++ [⟨w₂, .close socket, ()⟩]) := by
  rcases withSocket_runs hr with hfail | ⟨socket, w₁, h₁, w₂, hb, hu, hw, rfl⟩
  · exact .inl hfail
  · obtain ⟨q, hq, hr⟩ := hu.bind_map (fun _ => rfl) fun _ => rfl
    exact .inr ⟨socket, w₁, h₁, q, w₂, hb, hq, hw, hr, rfl⟩

theorem trail_runs {r : Attempted Trail} (hr : c.trail.Runs net w h r w') :
    ∃ h', h = ⟨w, .resolve c.settings.serverHost c.settings.ports.primary,
        net.resolve c.settings.serverHost c.settings.ports.primary⟩ :: h' ∧
      ((preferred? (net.resolve c.settings.serverHost c.settings.ports.primary) = none ∧ h' = [] ∧
          w' = w ∧ r = .ok (.unreachable Verdict.unresolved)) ∨
        ∃ primary, preferred? (net.resolve c.settings.serverHost c.settings.ports.primary) =
            some primary ∧
          ∃ h₁ h₂ q w₁, h' = h₁ ++ h₂ ∧ (outboundIp primary).Runs net w h₁ q w₁ ∧
            ((∃ f, q = .error f ∧ h₂ = [] ∧ w' = w₁ ∧ r = .error f) ∨
              (q = .ok none ∧ h₂ = [] ∧ w' = w₁ ∧ r = .ok (.unreachable Verdict.noRoute)) ∨
              ∃ localIp, q = .ok (some localIp) ∧
                (c.takeSteps (c.listenersAt primary) localIp).Runs net w₁ h₂ r w')) := by
  obtain ⟨h₁, h₂, server, w₁, rfl, hs, rest⟩ := hr.bind
  obtain ⟨h₃, h₄, resolved, w₂, rfl, hres, hdone⟩ := hs.bind
  obtain ⟨rfl, hw₂⟩ := hres.perform
  obtain ⟨rfl, rfl⟩ := Prod.mk.inj hw₂
  obtain ⟨rfl, rfl, rfl⟩ := hdone.pure
  refine ⟨h₂, rfl, ?_⟩
  cases hp : preferred? (net.resolve c.settings.serverHost c.settings.ports.primary) with
  | none =>
    rw [hp] at rest
    obtain ⟨rfl, rfl, rfl⟩ := rest.pure
    exact .inl ⟨rfl, rfl, rfl, rfl⟩
  | some primary =>
    rw [hp] at rest
    obtain ⟨h₅, h₆, q, w₃, rfl, ho, hsteps⟩ := rest.bind
    refine .inr ⟨primary, rfl, h₅, h₆, q, w₃, rfl, ho, ?_⟩
    rcases q with f | _ | localIp
    · obtain ⟨rfl, rfl, rfl⟩ := hsteps.pure
      exact .inl ⟨f, rfl, rfl, rfl, rfl⟩
    · obtain ⟨rfl, rfl, rfl⟩ := hsteps.pure
      exact .inr (.inl ⟨rfl, rfl, rfl, rfl⟩)
    · exact .inr (.inr ⟨localIp, rfl, hsteps⟩)

/-- A run fails or reports on the trail that it followed. -/
theorem run_runs {stamp : Stamp} {r : Attempted Report} (hr : (c.run stamp).Runs net w h r w') :
    ∃ t h₁ h₂, c.trail.Runs net w h₁ t w' ∧ h = ⟨w, .clock, w.clock⟩ :: (h₁ ++ h₂) ∧
      ((∃ f, t = .error f ∧ h₂ = [] ∧ r = .error f) ∨
        ∃ trail, t = .ok trail ∧ h₂ = [⟨w', .clock, w'.clock⟩] ∧
          r = .ok
            { runId := stamp.runId
              startedAtMs := stamp.startedAtMs
              elapsedMs := (w'.clock - w.clock).toUInt64
              localAddress := trail.localAddress
              findings := trail.course.findings
              classification := trail.course.classification }) := by
  obtain ⟨h₁, h₂, start, w₁, rfl, hc, rest⟩ := hr.bind
  obtain ⟨rfl, hw⟩ := hc.perform
  obtain ⟨rfl, rfl⟩ := Prod.mk.inj hw
  obtain ⟨h₃, h₄, t, w₂, rfl, ht, rest⟩ := rest.bind
  cases t with
  | error f =>
    obtain ⟨rfl, rfl, rfl⟩ := rest.pure
    exact ⟨.error f, h₃, [], ht, rfl, .inl ⟨f, rfl, rfl, rfl⟩⟩
  | ok trail =>
    obtain ⟨h₅, h₆, stop, w₃, rfl, hstop, hdone⟩ := rest.bind
    obtain ⟨rfl, hw₃⟩ := hstop.perform
    obtain ⟨rfl, rfl⟩ := Prod.mk.inj hw₃
    obtain ⟨rfl, rfl, rfl⟩ := hdone.pure
    exact ⟨.ok trail, h₃, _, ht, rfl, .inr ⟨trail, rfl, rfl, rfl⟩⟩

end Client

end NatBehaviour.Discovery
