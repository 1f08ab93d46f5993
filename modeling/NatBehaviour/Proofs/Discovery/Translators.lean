import NatBehaviour.Proofs.Discovery.Lossless

/-!
What discovery makes of translators that map every socket to one external address, wherever it sends to.
Their filtering decides which replies get through. All listeners share one address, so that the secondary
one counts as contacted wherever addresses alone are compared; and since two sockets never share an
external address, the mappings of two sockets always differ. Of the three usual filterings, discovery
therefore tells only the strictest from the others.
-/

namespace NatBehaviour.Discovery

open NatBehaviour.Net (Ip Endpoint)
open NatBehaviour.Network (SocketAddress Transmission)
open NatBehaviour.Responder (loopbackListeners narrowHost relay)
open NatBehaviour.Wire (Listeners Role)

/-- What a translator lets in to a socket. -/
inductive Filtering
  | anySource
  /-- Datagrams from an address that the socket has sent to, from any port. -/
  | contactedIp
  /-- Datagrams from an address and port that the socket has sent to. -/
  | contactedEndpoint
  deriving DecidableEq, Repr

namespace Filtering

def admits (f : Filtering) (contacted : List Endpoint) (source : Endpoint) : Bool :=
  match f with
  | anySource => true
  | contactedIp => contacted.any (·.ip = source.ip)
  | contactedEndpoint => contacted.contains source

/-- What discovery makes of a translator. -/
def classification : Filtering → Classification
  | anySource | contactedIp => .fullCone
  | contactedEndpoint => .symmetricNat

/-- The classification whose description fits a translator. -/
def namesake : Filtering → Classification
  | anySource => .fullCone
  | contactedIp => .restricted
  | contactedEndpoint => .portRestricted

end Filtering

/-- A translator that maps every socket to one external address. -/
structure Translator where
  external : Endpoint → Endpoint
  filtering : Filtering

namespace Translator

/-- Where a socket has sent to, including the transmission at hand. -/
def contacted (log : List (Transmission × Bool)) (t : Transmission) : List Endpoint :=
  t.destination :: (log.filter fun e => e.2 && e.1.source = t.source).map (·.1.destination)

/-- Whether a translator lets in what a listener replies to a transmission. -/
def passes (nat : Translator) (server : Listeners Endpoint) (log : List (Transmission × Bool))
    (t : Transmission) (role : Role) : Bool :=
  nat.filtering.admits (contacted log t) (server.get role)

/-- The sockets of a client are behind a translator, in a network that loses nothing else. -/
structure Carries (nat : Translator) (net : Network) (server : Listeners Endpoint)
    (first second : SocketAddress) (timeoutMs : Nat) : Prop where
  first_moved : nat.external first ≠ first
  second_moved : nat.external second ≠ second
  distinct : nat.external first ≠ nat.external second
  conveys : Conveys net server [first, second] nat.external (nat.passes server) timeoutMs

/-- The listeners whose replies get through if only the primary one is ever contacted. -/
def reached (nat : Translator) (role : Role) : Bool :=
  nat.filtering ≠ .contactedEndpoint || role = .primary

variable {nat : Translator} {c : Client} {primary : Endpoint}

theorem mem_contacted {server : Listeners Endpoint} {log : List (Transmission × Bool)}
    {t : Transmission} (hlog : ∀ e ∈ log, e.1.destination = server.primary)
    (ht : t.destination = server.primary) {e : Endpoint} :
    e ∈ contacted log t ↔ e = server.primary := by
  rw [contacted, ht, List.mem_cons]
  refine or_iff_left_of_imp ?_
  intro he
  obtain ⟨entry, hentry, rfl⟩ := List.mem_map.mp he
  exact hlog entry (List.mem_filter.mp hentry).1

theorem steady_passes (hserver : Function.Injective (c.listenersAt primary).get) :
    Steady (c.listenersAt primary) (nat.passes (c.listenersAt primary)) nat.reached := by
  intro log t role hlog ht
  have hmem {e : Endpoint} := mem_contacted hlog ht (e := e)
  rw [passes, reached]
  cases nat.filtering with
  | anySource => rfl
  | contactedIp =>
    have hprimary : (c.listenersAt primary).primary ∈ contacted log t := hmem.mpr rfl
    refine List.any_eq_true.mpr ⟨_, hprimary, ?_⟩
    rw [Client.ip_listenersAt]
    exact decide_eq_true rfl
  | contactedEndpoint =>
    have hiff : (c.listenersAt primary).get role ∈ contacted log t ↔ role = .primary := by
      rw [hmem]
      exact ⟨fun he => hserver he, fun hr => by rw [hr]; rfl⟩
    simp [Filtering.admits, hiff]

/-- A translator that puts an address of its own in place of the host's, and keeps the port. -/
def keepingPorts (f : Filtering) : Translator where
  external
    | .v4 _ port => .v4 ⟨203, 0, 113, 7⟩ port
    | e => e
  filtering := f

/-- A host behind such a translator. -/
def keepingRelay (f : Filtering) : Network :=
  relay narrowHost loopbackListeners (keepingPorts f).external
    ((keepingPorts f).passes loopbackListeners) [20]

theorem keepingPorts_carries (f : Filtering) :
    (keepingPorts f).Carries (keepingRelay f) loopbackListeners (.v4 .loopback 32768)
      (.v4 .loopback 32769) 5000 where
  first_moved := by cases f <;> decide
  second_moved := by cases f <;> decide
  distinct := by cases f <;> decide
  conveys := relay_conveys (by decide) Client.canSend_narrowHost

end Translator

/-- Behind a translator that maps every socket to one external address, discovery tells filtering by
address and port from the two others, and nothing more. -/
theorem Client.run_classifies_translator {nat : Translator} {c : Client} {stamp : Stamp}
    {net : Network} {taken : List Endpoint} {primary : Endpoint} {localIp : Ip}
    {first second : SocketAddress} (hopens : c.Opens net taken primary localIp first second)
    (hports : ∀ p ∈ c.settings.ports.toList, p ≠ 0)
    (hnat : nat.Carries net (c.listenersAt primary) first second c.settings.timeoutMs.toNat) :
    ∃ report w', (c.run stamp).run net (.start taken) = (.ok report, w') ∧
      report.classification = nat.filtering.classification := by
  have hserver := c.listenersAt_injective hopens.port hports
  obtain ⟨report, w', hrun, hk⟩ : ∃ report w', (c.run stamp).run net (.start taken) =
      (.ok report, w') ∧ report.classification =
        expectedClassification nat.external nat.reached first second :=
    run_lossless hopens hports hnat.conveys (Translator.steady_passes hserver)
  refine ⟨report, w', hrun, ?_⟩
  rw [hk, expectedClassification, if_neg hnat.first_moved, if_pos hnat.distinct]
  cases hf : nat.filtering <;> simp [Translator.reached, hf, Filtering.classification]

theorem Client.run_classifies_translator_symmetric :
    ∃ report w', (Client.default.run ⟨⟨0⟩, 0⟩).run (Translator.keepingRelay .contactedEndpoint)
        (.start []) = (.ok report, w') ∧ report.classification = .symmetricNat :=
  run_classifies_translator opens_narrowHost default_ports
    (Translator.keepingPorts_carries .contactedEndpoint)

/-- A translator that compares addresses is not found to be restricted, nor one that compares ports as
well to be port-restricted. -/
theorem Client.not_classified_as_namesake :
    ((Translator.keepingPorts .contactedIp).Carries (Translator.keepingRelay .contactedIp)
        loopbackListeners (.v4 .loopback 32768) (.v4 .loopback 32769) 5000 ∧
      ∃ report w', (Client.default.run ⟨⟨0⟩, 0⟩).run (Translator.keepingRelay .contactedIp)
          (.start []) = (.ok report, w') ∧
        report.classification = .fullCone ∧
        report.classification ≠ Filtering.contactedIp.namesake) ∧
    (Translator.keepingPorts .contactedEndpoint).Carries
        (Translator.keepingRelay .contactedEndpoint) loopbackListeners (.v4 .loopback 32768)
        (.v4 .loopback 32769) 5000 ∧
      ∃ report w', (Client.default.run ⟨⟨0⟩, 0⟩).run (Translator.keepingRelay .contactedEndpoint)
          (.start []) = (.ok report, w') ∧
        report.classification = .symmetricNat ∧
        report.classification ≠ Filtering.contactedEndpoint.namesake := by
  refine ⟨⟨Translator.keepingPorts_carries _, ?_⟩, Translator.keepingPorts_carries _, ?_⟩
  · have hresult : ((Client.default.run ⟨⟨0⟩, 0⟩).run (Translator.keepingRelay .contactedIp)
        (.start [])).1.toOption.map (·.classification) = some .fullCone := by decide +kernel
    obtain ⟨report, w', hrun, hk⟩ := exists_report hresult
    exact ⟨report, w', hrun, hk, by rw [hk]; decide⟩
  · have hresult : ((Client.default.run ⟨⟨0⟩, 0⟩).run (Translator.keepingRelay .contactedEndpoint)
        (.start [])).1.toOption.map (·.classification) = some .symmetricNat := by decide +kernel
    obtain ⟨report, w', hrun, hk⟩ := exists_report hresult
    exact ⟨report, w', hrun, hk, by rw [hk]; decide⟩

end NatBehaviour.Discovery
