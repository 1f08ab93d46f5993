import NatBehaviour.Proofs.Network.Delivery
import NatBehaviour.Proofs.Wire.RoundTrip
import NatBehaviour.Responder.Reply

/-!
Where the datagrams of a client come from when only a responder answers it. Messages carry nothing that
ties a reply to its request; all that is known of a datagram is the listener that sent it. The invariant
`Attributed` remembers for every datagram a request that caused it, and for every request its kind.
-/

namespace NatBehaviour.Responder

open NatBehaviour.Net (Endpoint)
open NatBehaviour.Network (Transmission World)
open NatBehaviour.Probe (Datagram Filter)
open NatBehaviour.Wire (Kind Listeners Message Role received)

theorem answer_request (receivedOn : Role) (source : Endpoint) (kind : Kind) :
    answer receivedOn source (Message.request kind).encode =
      replies (Message.request kind) receivedOn source := by
  simp [answer, Message.decode_request]

/-- A datagram that a responder sends because of a transmission, and the listener that sends it. The
transmission was seen to come from some address, which need not be its real one. -/
inductive Caused (server : Listeners Endpoint) (saw : Transmission → Endpoint → Prop)
    (t : Transmission) : Role → Datagram → Prop
  | intro {receivedOn : Role} {source : Endpoint} {s : Sending} (seen : saw t source)
      (received : server.get receivedOn = t.destination)
      (sent : s ∈ answer receivedOn source t.payload) :
      Caused server saw t s.role ⟨server.get s.role, s.payload⟩

section

variable {server : Listeners Endpoint} {saw : Transmission → Endpoint → Prop}

/-- What a request to the primary listener causes: a reply from each listener of the plan. -/
theorem caused_request (hserver : Function.Injective server.get) {t : Transmission} {kind : Kind}
    (hdest : t.destination = server.primary) (hpayload : t.payload = (Message.request kind).encode)
    {role : Role} {d : Datagram} :
    Caused server saw t role d ↔ ∃ source, saw t source ∧ role ∈ replyPlan kind .primary ∧
      d = ⟨server.get role, (Message.reply kind source).encode⟩ := by
  constructor
  · rintro @⟨receivedOn, source, s, hseen, hreceived, hsent⟩
    have hprimary : receivedOn = .primary := hserver (hreceived.trans hdest)
    rw [hprimary, hpayload, answer_request] at hsent
    obtain ⟨role, hrole, rfl⟩ := List.mem_map.mp hsent
    exact ⟨source, hseen, hrole, rfl⟩
  · rintro ⟨source, hseen, hrole, rfl⟩
    have hreceived : server.get .primary = t.destination := hdest.symm
    have hsent : ⟨role, source, (Message.reply kind source).encode⟩ ∈
        answer .primary source t.payload := by
      rw [hpayload, answer_request]
      exact List.mem_map.mpr ⟨role, hrole, rfl⟩
    exact .intro hseen hreceived hsent

/-- Everything that was sent is a request of some kinds to the primary listener, and every datagram was
caused by one of the sender's own requests and comes from a listener that gets through. -/
structure Attributed (server : Listeners Endpoint) (saw : Transmission → Endpoint → Prop)
    (passes : Role → Prop) (kinds : List Kind) (w : World) : Prop where
  asked : ∀ e ∈ w.log, e.1.destination = server.primary ∧
    ∃ kind ∈ kinds, e.1.payload = (Message.request kind).encode
  caused : ∀ {x d}, w.Holds x d → ∃ t role, (t, true) ∈ w.log ∧ t.source = x ∧ passes role ∧
    Caused server saw t role d

/-- What a network may answer to a transmission: replies that this one or an earlier one has caused, each
to the sender of its request. -/
def AnsweredFor (net : Network) (server : Listeners Endpoint) (saw : Transmission → Endpoint → Prop)
    (passes : Role → Prop) (log : List (Transmission × Bool)) (t : Transmission) : Prop :=
  ∀ rs, net.carry log t = some rs → ∀ r ∈ rs, ∃ t' role, (t' = t ∨ (t', true) ∈ log) ∧
    r.destination = t'.source ∧ passes role ∧ Caused server saw t' role r.datagram

namespace Attributed

variable {passes : Role → Prop} {kinds kinds' : List Kind} {net : Network} {w w' : World}
  {x : Endpoint} {d : Datagram}

theorem start (taken : List Endpoint) : Attributed server saw passes kinds (.start taken) where
  asked := fun e he => absurd he List.not_mem_nil
  caused := by
    rintro x d (⟨s, hs, -⟩ | ⟨a, ha, -⟩)
    · cases hs
    · cases ha

theorem mono (h : Attributed server saw passes kinds w) (hk : ∀ k ∈ kinds, k ∈ kinds') :
    Attributed server saw passes kinds' w where
  asked := fun e he => by
    obtain ⟨hdest, kind, hkind, hpayload⟩ := h.asked e he
    exact ⟨hdest, kind, hk kind hkind, hpayload⟩
  caused := h.caused

theorem quiet (h : Attributed server saw passes kinds w) (hq : w.Quiet w') :
    Attributed server saw passes kinds w' where
  asked := by
    rw [hq.log]
    exact h.asked
  caused := by
    intro x d hd
    rw [hq.log]
    exact h.caused (hq.holds hd)

theorem send {ok : Bool} (h : Attributed server saw passes kinds w) {kind : Kind} (hk : kind ∈ kinds)
    (hnet : AnsweredFor net server saw passes w.log
      ⟨w.clock, x, server.primary, (Message.request kind).encode⟩)
    (hsend : w.send net x server.primary (Message.request kind).encode = (ok, w')) :
    Attributed server saw passes kinds w' := by
  have hasked : ∀ e ∈ (⟨w.clock, x, server.primary, (Message.request kind).encode⟩, ok) :: w.log,
      e.1.destination = server.primary ∧
        ∃ kind ∈ kinds, e.1.payload = (Message.request kind).encode := by
    intro e he
    rcases List.mem_cons.mp he with rfl | he
    · exact ⟨rfl, kind, hk, rfl⟩
    · exact h.asked e he
  cases ok with
  | false =>
    obtain ⟨-, rfl⟩ := World.send_false hsend
    refine ⟨hasked, ?_⟩
    intro y d hd
    obtain ⟨t, role, ht, rest⟩ := h.caused hd
    exact ⟨t, role, List.mem_cons_of_mem _ ht, rest⟩
  | true =>
    obtain ⟨rs, hcarry, hr⟩ := World.send_true hsend
    constructor
    · rw [hr.log]
      exact hasked
    · intro y d hd
      rw [hr.log]
      rcases hr.holds hd with hd | ⟨r, hmem, rfl, rfl⟩
      · obtain ⟨t, role, ht, rest⟩ := h.caused hd
        exact ⟨t, role, List.mem_cons_of_mem _ ht, rest⟩
      · obtain ⟨t, role, ht, hdest, rest⟩ := hnet rs hcarry r hmem
        refine ⟨t, role, ?_, hdest.symm, rest⟩
        rcases ht with rfl | ht
        · exact List.mem_cons_self
        · exact List.mem_cons_of_mem _ ht

/-- A reply that is accepted from one listener was caused by a request of the client's own for which
that listener replies. -/
theorem judged {expected : Role} {m : Message} (hserver : Function.Injective server.get)
    (h : Attributed server saw passes kinds w) (hd : w.Holds x d)
    (hj : (Filter.only (server.get expected)).judge d = .usable m) :
    ∃ t kind source, (t, true) ∈ w.log ∧ t.source = x ∧ t.destination = server.primary ∧
      t.payload = (Message.request kind).encode ∧ kind ∈ kinds ∧ saw t source ∧
      expected ∈ replyPlan kind .primary ∧ passes expected ∧ m = .reply kind source ∧
      d = ⟨server.get expected, m.encode⟩ := by
  obtain ⟨t, role, ht, hsource, hpasses, hcaused⟩ := h.caused hd
  obtain ⟨hdest, kind, hkind, hpayload⟩ := h.asked _ ht
  obtain ⟨source, hseen, hplan, rfl⟩ := (caused_request hserver hdest hpayload).mp hcaused
  unfold Filter.judge at hj
  split at hj
  · rename_i haccepts
    have hrole : role = expected := hserver (by simpa [Filter.accepts] using haccepts)
    rw [Message.decode_reply] at hj
    cases hj
    subst hrole
    exact ⟨t, kind, source, ht, hsource, hdest, hpayload, hkind, hseen, hplan, hpasses, rfl, rfl⟩
  · cases hj

end Attributed

end

end NatBehaviour.Responder
