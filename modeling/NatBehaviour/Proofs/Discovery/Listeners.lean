import NatBehaviour.Proofs.Discovery.Batches

/-!
The addresses of the three listeners, as a client derives them from its settings and from what the name of
the server stands for. Settings without a zero among the ports keep them apart, so that a reply is taken for
one of one listener only. Zero may repeat, and then the addresses coincide; nobody chooses other ports for them.
-/

namespace NatBehaviour.Discovery

open NatBehaviour.Net (Ip Endpoint)
open NatBehaviour.Network (Moment Program World)
open NatBehaviour.Probe (Filter)
open NatBehaviour.Responder (loopbackListeners restrictingRelay)
open NatBehaviour.Wire (Listeners Role)

theorem accepts_only_iff {listener source : Endpoint} :
    (Filter.only listener).accepts source = true ↔ source = listener := by
  simp [Filter.accepts]

namespace Client

variable {c : Client} {net : Network} {server : Listeners Endpoint} {w w' : World}

theorem settings_of_ofSettings {p : Settings.Probe} (h : ofSettings p = .ok c) : c.settings = p := by
  unfold ofSettings at h
  split at h
  · cases h
  · cases h
    rfl

theorem resolveServer_run (h : c.resolveServer.run net w = (some server, w')) :
    ∃ primary, c.primary? net = some primary ∧ c.listenersAt primary = server := by
  obtain ⟨hserver, -⟩ := Prod.mk.inj h
  exact Option.map_eq_some_iff.mp hserver

/-- Settings that a client accepts keep the three listeners apart as far as their ports are not zero, if names
stand for addresses with the port that was asked for. Each listener has its own port at the address of the
server. Datagrams of one source are accepted as those of two listeners only if the ports of both are zero.
A run consists of batches of its steps, so where another listener than the primary one is to reply, a reply
of the primary one is accepted only if both of their ports are zero. -/
theorem listeners_apart {p : Settings.Probe} (hc : ofSettings p = .ok c)
    (hnet : ∀ {host port e}, e ∈ net.resolve host port → e.port = port)
    (hserver : c.resolveServer.run net w = (some server, w')) :
    (∀ role, (server.get role).ip = server.primary.ip ∧ (server.get role).port = p.ports.get role) ∧
    (∀ a b, a ≠ b → server.get a = server.get b → p.ports.get a = 0 ∧ p.ports.get b = 0) ∧
    (∀ source a b, a ≠ b → (Filter.only (server.get a)).accepts source = true →
      (Filter.only (server.get b)).accepts source = true →
        source.port = 0 ∧ p.ports.get a = 0 ∧ p.ports.get b = 0) ∧
    (∀ step ∈ [Step.firewall, .fullCone, .portRestriction], ∀ socket,
      (step.batch p server socket).filter.accepts server.primary = true →
        p.ports.primary = 0 ∧ p.ports.get step.expected = 0) ∧
    ∀ stamp w h r w', (c.run stamp).Runs net w h r w' → ∃ os, Batches net p server w h os w' := by
  obtain rfl := settings_of_ofSettings hc
  obtain ⟨primary, hprimary, rfl⟩ := resolveServer_run hserver
  have hport : primary.port = c.settings.ports.primary := hnet (mem_of_preferred? hprimary)
  refine ⟨?_, ?_, ?_, ?_, ?_⟩
  · intro role
    exact ⟨c.ip_listenersAt primary role, port_listenersAt hport role⟩
  · intro a b hne hsame
    exact zero_of_shared_address hport hne hsame
  · intro source a b hne ha hb
    have hsource := accepts_only_iff.mp ha
    obtain ⟨hzero, hzero'⟩ := zero_of_shared_address hport hne (hsource.symm.trans (accepts_only_iff.mp hb))
    exact ⟨by rw [hsource, port_listenersAt hport, hzero], hzero, hzero'⟩
  · intro step hstep socket haccepts
    have hother : Role.primary ≠ step.expected := by
      simp only [List.mem_cons, List.not_mem_nil, or_false] at hstep
      rcases hstep with rfl | rfl | rfl <;> exact nofun
    exact zero_of_shared_address hport hother (accepts_only_iff.mp haccepts)
  · intro stamp w h r w' hr
    have honly (primary' : Endpoint) (hprimary' : c.primary? net = some primary') :
        c.listenersAt primary' = c.listenersAt primary := by
      rw [Option.some.inj (hprimary.symm.trans hprimary')]
    obtain ⟨os, hb, -⟩ := run_batches hr honly
    exact ⟨os, hb⟩

/-- With the well-known ports, a datagram of the primary listener passes for one of no other listener. -/
theorem listeners_apart_default :
    ∃ server w', Client.default.resolveServer.run (restrictingRelay [20]) (.start []) = (some server, w') ∧
      ∀ step ∈ [Step.firewall, .fullCone, .portRestriction], ∀ socket,
        (step.batch .default server socket).filter.accepts server.primary = false := by
  have haccepted : ofSettings .default = .ok Client.default := rfl
  have hnet : Network.Orderly (restrictingRelay [20]) := Network.Host.orderly_network _ _
  have hserver : Client.default.resolveServer.run (restrictingRelay [20]) (.start []) =
      (some loopbackListeners, .start []) := rfl
  refine ⟨loopbackListeners, .start [], hserver, ?_⟩
  obtain ⟨-, -, -, hsteps, -⟩ := listeners_apart haccepted hnet.port hserver
  intro step hstep socket
  refine Bool.eq_false_iff.mpr fun haccepts => ?_
  obtain ⟨hprimary, -⟩ := hsteps step hstep socket haccepts
  cases hprimary

/-- Settings with port zero for every listener. -/
def zeroPorts : Settings.Probe := { Settings.Probe.default with ports := ⟨0, 0, 0⟩ }

/-- A client accepts settings with port zero only, although all listeners get the same address and so a reply of
the primary one passes for one of any other. -/
theorem listeners_coincide :
    ∃ c server w', ofSettings zeroPorts = .ok c ∧
      c.resolveServer.run (restrictingRelay [20]) (.start []) = (some server, w') ∧
      (∀ role, (server.get role).port = 0 ∧ server.get role = server.primary) ∧
      ∀ step : Step, ∀ socket,
        (step.batch zeroPorts server socket).filter.accepts server.primary = true := by
  let e : Endpoint := .v4 .loopback 0
  refine ⟨⟨zeroPorts, rfl⟩, ⟨e, e, e⟩, .start [], rfl, rfl, ?_, ?_⟩
  · intro role
    cases role <;> exact ⟨rfl, rfl⟩
  · intro step socket
    refine accepts_only_iff.mpr ?_
    cases step <;> rfl

end Client

end NatBehaviour.Discovery
