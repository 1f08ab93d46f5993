import Mathlib.Data.List.Basic
import Mathlib.Data.List.Count
import NatBehaviour.Proofs.Discovery.Mappings

/-!
What a client learns from the texts in replies. A reply says where its request was seen to come from, as a
text; such a text fits into a datagram whatever the address is, and is read back to that address. So a
client that compares texts, as a discovery does throughout, compares addresses.
-/

namespace NatBehaviour.Discovery

open NatBehaviour.Net (Endpoint)
open NatBehaviour.Network (Program SocketAddress World heard)
open NatBehaviour.Probe (Batch Outcome Tallied)
open NatBehaviour.Responder (loopbackListeners narrowHost relay)
open NatBehaviour.Wire (Kind Message Role)

/-- A reply of some kind, to a request that was seen to come from some address. -/
structure Echo where
  kind : Kind
  source : Endpoint
  deriving DecidableEq

def Echo.message (e : Echo) : Message := .reply e.kind e.source

theorem map_reported (es : List Echo) :
    (es.map Echo.message).map reported = (es.map (·.source)).map Endpoint.text := by
  simp only [List.map_map]
  rfl

/-- Whatever the address, a reply is small enough for a datagram, is read back from it, and its text is
read back to the address. -/
theorem echo_carried (e : Echo) :
    e.message.encode.length ≤ 1024 ∧ Message.decode e.message.encode = .ok e.message ∧
      ∃ text, e.message.observed = some text ∧ Endpoint.ofString? text = some e.source := by
  have hle : e.message.encode.length ≤ 1024 :=
    Nat.le_trans (Message.length_encode_reply_le e.kind e.source) (by decide)
  exact ⟨hle, Message.decode_encode hle, e.source.text, rfl, Endpoint.ofString?_text e.source⟩

theorem observed_echo_eq_iff {e e' : Echo} :
    e.message.observed = e'.message.observed ↔ e.source = e'.source :=
  Option.some_inj.trans Endpoint.text_eq_iff

theorem count_texts (sources : List Endpoint) (own : Endpoint) :
    (sources.map Endpoint.text).count own.text = sources.count own :=
  List.count_map_of_injective sources Endpoint.text (fun _ _ => Endpoint.text_injective) own

theorem texts_eq_replicate_iff {sources : List Endpoint} {own : Endpoint} {n : Nat} :
    sources.map Endpoint.text = List.replicate n own.text ↔ sources = List.replicate n own := by
  rw [← List.map_replicate]
  exact (List.map_injective_iff.mpr fun _ _ => Endpoint.text_injective).eq_iff

/-- The first texts agree just if the first addresses do. -/
theorem sameText_iff {sources others : List Endpoint} :
    (∃ text, (sources.map Endpoint.text).head? = some text ∧ (others.map Endpoint.text).head? = some text) ↔
      ∃ source, sources.head? = some source ∧ others.head? = some source := by
  simp only [List.head?_map, Option.map_eq_some_iff]
  constructor
  · intro h
    obtain ⟨text, ⟨source, hfirst, rfl⟩, other, hother, htext⟩ := h
    obtain rfl := Endpoint.text_injective htext
    exact ⟨other, hfirst, hother⟩
  · intro h
    obtain ⟨source, hfirst, hother⟩ := h
    exact ⟨source.text, ⟨source, hfirst, rfl⟩, source, hother, rfl⟩

/-! ## What a client compares -/

/-- A batch can read these replies and no others, and then comes to this outcome. -/
def Echoed (b : Batch) (es : List Echo) (o : Outcome) : Prop :=
  ∃ net w h w', b.run.Runs net w h o w' ∧ heard h = es.map Echo.message

namespace Echoed

variable {b b' : Batch} {es es' : List Echo} {o o' : Outcome}

theorem observed (h : Echoed b es o) : o.observed = (es.map (·.source)).map Endpoint.text := by
  obtain ⟨net, w, ms, w', hr, hheard⟩ := h
  rw [attemptTimes_heard hr, hheard, map_reported]
  rfl

theorem tallied (h : Echoed b es o) : Tallied b b.attempts.toNat o := by
  obtain ⟨net, w, ms, w', hr, -⟩ := h
  exact .run hr.returns

/-- The matches are the replies that report the own address. -/
theorem addressMatches {own : Endpoint} (h : Echoed b es o) (hown : b.reference = own.text) :
    o.addressMatches.toNat = (es.map (·.source)).count own := by
  rw [h.tallied.matched, h.observed, hown, count_texts]

theorem everyAttemptMatched_iff {own : Endpoint} (h : Echoed b es o) (hown : b.reference = own.text) :
    o.everyAttemptMatched = true ↔
      b.attempts ≠ 0 ∧ es.map (·.source) = List.replicate b.attempts.toNat own := by
  by_cases hpos : b.attempts = 0
  · simp [Outcome.everyAttemptMatched, h.tallied.attempts, hpos]
  · rw [h.tallied.everyAttemptMatched_iff hpos, h.observed, hown, texts_eq_replicate_iff]
    exact (and_iff_right hpos).symm

theorem compareMappings_iff (h : Echoed b es o) (h' : Echoed b' es' o') :
    Session.compareMappings o o' = .ok () ↔
      ∃ source, (es.map (·.source)).head? = some source ∧ (es'.map (·.source)).head? = some source := by
  rw [compareMappings_eq_ok_iff, SameMapping, h.observed, h'.observed, sameText_iff]

end Echoed

/-- Replies carry any address faithfully: they fit, they are read back, and so are the addresses in them,
which are equal just if their texts are. So a client that is answered with replies counts those that report
the address that its socket is bound to, and two sockets pass for having the same mapping just if their
first replies report the same address. -/
theorem texts_decide_addresses :
    (∀ e : Echo, e.message.encode.length ≤ 1024 ∧ Message.decode e.message.encode = .ok e.message ∧
      ∃ text, e.message.observed = some text ∧ Endpoint.ofString? text = some e.source) ∧
    (∀ e e' : Echo, e.message.observed = e'.message.observed ↔ e.source = e'.source) ∧
    (∀ (s : Session) (socket : SocketAddress) (kind : Kind) (role : Role) (es : List Echo) (o : Outcome),
      Echoed (s.batch socket kind role) es o →
        o.addressMatches.toNat = (es.map (·.source)).count socket ∧
        (o.everyAttemptMatched = true ↔ s.settings.maxAttempts ≠ 0 ∧
          es.map (·.source) = List.replicate s.settings.maxAttempts.toNat socket)) ∧
    (∀ (b b' : Batch) (es es' : List Echo) (o o' : Outcome), Echoed b es o → Echoed b' es' o' →
      (Session.compareMappings o o' = .ok () ↔ ∃ source,
        (es.map (·.source)).head? = some source ∧ (es'.map (·.source)).head? = some source)) := by
  refine ⟨echo_carried, fun e e' => observed_echo_eq_iff, ?_, ?_⟩
  · intro s socket kind role es o h
    exact ⟨h.addressMatches rfl, h.everyAttemptMatched_iff rfl⟩
  · intro b b' es es' o o' h h'
    exact h.compareMappings_iff h'

/-- Two sockets on the loopback interface, each of which reaches a responder as it is. -/
def twoSockets : World := ⟨0, [], [⟨.v4 .loopback 32768, []⟩, ⟨.v4 .loopback 32769, []⟩], [], []⟩

def directRelay : Network := relay narrowHost loopbackListeners id (fun _ _ _ => true) [20]

def directPings (port : UInt16) : Batch :=
  Session.batch ⟨.default, .v4 .loopback port, .v4 .loopback, loopbackListeners⟩ (.v4 .loopback port)
    .ping .primary

/-- Each socket is told its own address, and the two addresses differ. -/
theorem texts_decide_addresses_direct :
    ∃ o o', Echoed (directPings 32768) (List.replicate 3 ⟨.ping, .v4 .loopback 32768⟩) o ∧
      Echoed (directPings 32769) (List.replicate 3 ⟨.ping, .v4 .loopback 32769⟩) o' ∧
      o.addressMatches.toNat = 3 ∧ o.everyAttemptMatched = true ∧
      Session.compareMappings o o' ≠ .ok () := by
  have echoed (port : UInt16)
      (hheard : heard ((directPings port).run.history directRelay twoSockets) =
        (List.replicate 3 ⟨.ping, .v4 .loopback port⟩ : List Echo).map Echo.message) :
      Echoed (directPings port) (List.replicate 3 ⟨.ping, .v4 .loopback port⟩)
        ((directPings port).run.run directRelay twoSockets).1 :=
    ⟨_, _, _, _, Program.runs_history _ _, hheard⟩
  have hfirst := echoed 32768 (by decide +kernel)
  have hsecond := echoed 32769 (by decide +kernel)
  obtain ⟨-, -, hbatch, hcompare⟩ := texts_decide_addresses
  obtain ⟨hmatches, hall⟩ := hbatch _ _ _ _ _ _ hfirst
  refine ⟨_, _, hfirst, hsecond, hmatches, hall.mpr ⟨by decide, rfl⟩, ?_⟩
  intro hsame
  obtain ⟨source, ha, hb⟩ := (hcompare _ _ _ _ _ _ hfirst hsecond).mp hsame
  cases ha
  cases hb

end NatBehaviour.Discovery
