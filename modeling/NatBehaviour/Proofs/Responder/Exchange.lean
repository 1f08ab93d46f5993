import Mathlib.Algebra.Order.BigOperators.Group.List
import Mathlib.Algebra.Order.Group.Nat
import Mathlib.Data.Multiset.OrderedMonoid
import NatBehaviour.Proofs.Responder.Relay
import NatBehaviour.Proofs.Responder.Service

/-!
Responders that can reach one another. A datagram may come from outside and claim any source; a reply may
go to the address of a listener, and arrive there as a datagram like any other. Replies have the form of
requests and are answered as such, so a single datagram with the address of a listener for its source
can keep two listeners busy. Where no datagram from outside does that, no reply ever reaches a listener.
-/

namespace NatBehaviour.Responder

open NatBehaviour.Json (Bytes)
open NatBehaviour.Net (Endpoint)
open NatBehaviour.Probe (Datagram)
open NatBehaviour.Wire (Kind Listeners Message Role received)

/-- What can happen among responders, which are told apart by their places in a list. -/
inductive Happening
  /-- A datagram from outside arrives at a listener. -/
  | inject (responder : Nat) (role : Role) (d : Datagram)
  /-- A reply arrives at a listener: the one with this number among all that `origin` has tried to send.
  Replies may overtake each other or get lost. -/
  | deliver (origin number responder : Nat) (role : Role)
  /-- A listener or one of its handlers takes its turn. -/
  | act (responder : Nat) (role : Role) (event : Event)
  deriving DecidableEq, Repr

namespace Happening

def delivers : Happening → Bool
  | .deliver _ _ _ _ => true
  | _ => false

end Happening

namespace Exchange

variable (sites : List (Listeners Endpoint))

/-- The datagram that a reply makes at a listener, if it was sent to the address of that listener. -/
def delivery? (services : List Service) (origin number responder : Nat) (role : Role) :
    Option Datagram :=
  match services[origin]?, sites[origin]?, sites[responder]? with
  | some s, some sender, some receiver =>
    match s.sent.reverse[number]? with
    | some reply =>
      if reply.destination = receiver.get role then
        some ⟨sender.get reply.role, reply.payload⟩
      else none
    | none => none
  | _, _, _ => none

/-- What a happening is for the responder that it concerns. Datagrams arrive in the first two ways only. -/
def event? (services : List Service) : Happening → Option (Nat × Role × Event)
  | .inject responder role d => some (responder, role, .arrive d)
  | .deliver origin number responder role =>
    (delivery? sites services origin number responder role).map fun d =>
      (responder, role, .arrive d)
  | .act _ _ (.arrive _) => none
  | .act responder role event => some (responder, role, event)

def step? (services : List Service) (h : Happening) : Option (List Service) :=
  match event? sites services h with
  | some (responder, role, event) =>
    (services[responder]?.bind (·.step? role event)).map (services.set responder)
  | none => none

/-- A sequence of happenings among responders whose listeners have these addresses. -/
def steps? (services : List Service) : List Happening → Option (List Service)
  | [] => some services
  | h :: rest => (step? sites services h).bind (steps? · rest)

/-- What all responders have sent and have still to send. -/
def account (services : List Service) : Multiset Sending := (services.map Service.account).sum

variable {sites} {services services' : List Service} {h : Happening} {responder : Nat} {role : Role}
  {event : Event}

/-- A reply that arrives was sent before, to the address of the listener that it arrives at. -/
theorem mem_account_of_delivery? {origin number : Nat} {d : Datagram}
    (hd : delivery? sites services origin number responder role = some d) :
    ∃ reply ∈ account services, ∃ receiver ∈ sites, receiver.get role = reply.destination := by
  unfold delivery? at hd
  split at hd
  · rename_i s sender receiver hservice _ hreceiver
    split at hd
    · rename_i reply hreply
      split at hd
      · rename_i hdestination
        have hsent : reply ∈ s.account := by
          have hlog := List.mem_reverse.mp (List.mem_of_getElem? hreply)
          exact Multiset.mem_add.mpr (.inl (Multiset.mem_coe.mpr hlog))
        have hle : s.account ≤ account services :=
          List.single_le_sum (fun _ _ => Multiset.zero_le _) _
            (List.mem_map_of_mem (List.mem_of_getElem? hservice))
        exact ⟨reply, Multiset.mem_of_le hle hsent, receiver, List.mem_of_getElem? hreceiver,
          hdestination.symm⟩
      · cases hd
    · cases hd
  · cases hd

theorem account_step (hstep : step? sites services h = some services') :
    ∃ responder role event, event? sites services h = some (responder, role, event) ∧
      account services' = event.brings role + account services := by
  unfold step? at hstep
  split at hstep
  · rename_i responder role event hevent
    obtain ⟨s', hs', rfl⟩ := Option.map_eq_some_iff.mp hstep
    obtain ⟨s, hs, hturn⟩ := Option.bind_eq_some_iff.mp hs'
    refine ⟨responder, role, event, hevent, ?_⟩
    have hset := sum_map_set Service.account hs s'
    rw [Service.account_step hturn, ← add_assoc] at hset
    rw [account, account, add_right_cancel hset, add_comm]
  · cases hstep

/-- No reply that has been sent or is still owed goes to a listener. -/
def Outgoing (sites : List (Listeners Endpoint)) (services : List Service) : Prop :=
  ∀ reply ∈ account services, ∀ listeners ∈ sites, ∀ role, listeners.get role ≠ reply.destination

/-- Where every reply goes out, a happening is no delivery; and replies go out still if a datagram that
it injects and that decodes does not claim the address of a listener. -/
theorem Outgoing.step (hout : Outgoing sites services)
    (hinject : ∀ responder role d m, h = .inject responder role d →
      Message.decode (received d.payload) = .ok m →
        ∀ listeners ∈ sites, ∀ r, listeners.get r ≠ d.source)
    (hstep : step? sites services h = some services') :
    h.delivers = false ∧ Outgoing sites services' := by
  obtain ⟨responder, role, event, hevent, hgrows⟩ := account_step hstep
  have hkept : event.brings role = 0 → Outgoing sites services' := by
    intro hnothing
    rw [hnothing, zero_add] at hgrows
    unfold Outgoing
    rw [hgrows]
    exact hout
  cases h with
  | inject n r d =>
    cases hevent
    refine ⟨rfl, ?_⟩
    intro reply hreply listeners hlisteners r
    rw [hgrows] at hreply
    rcases Multiset.mem_add.mp hreply with hnew | hold
    · obtain ⟨⟨m, hdecode⟩, hdestination⟩ :=
        destination_of_mem_answer (Multiset.mem_coe.mp hnew)
      rw [hdestination]
      exact hinject _ _ d m rfl hdecode listeners hlisteners r
    · exact hout reply hold listeners hlisteners r
  | deliver origin number n r =>
    obtain ⟨d, hd, -⟩ := Option.map_eq_some_iff.mp hevent
    obtain ⟨reply, hreply, receiver, hreceiver, haddress⟩ := mem_account_of_delivery? hd
    exact absurd haddress (hout reply hreply receiver hreceiver r)
  | act n r e =>
    cases e <;> cases hevent <;> exact ⟨rfl, hkept rfl⟩

theorem Outgoing.steps {run : List Happening} (hout : Outgoing sites services)
    (hinject : ∀ responder role d m, .inject responder role d ∈ run →
      Message.decode (received d.payload) = .ok m →
        ∀ listeners ∈ sites, ∀ r, listeners.get r ≠ d.source)
    (hrun : steps? sites services run = some services') :
    run.countP Happening.delivers = 0 := by
  induction run generalizing services with
  | nil => rfl
  | cons h rest ih =>
    obtain ⟨next, hstep, hrest⟩ := Option.bind_eq_some_iff.mp hrun
    obtain ⟨hkind, hnext⟩ := hout.step
      (fun responder role d m heq => hinject responder role d m (heq ▸ List.mem_cons_self)) hstep
    rw [List.countP_cons_of_neg (by simp [hkind])]
    exact ih hnext
      (fun responder role d m hmem => hinject responder role d m (List.mem_cons_of_mem h hmem)) hrest

/-- A responder with one permit to a listener. -/
def single : Service := ⟨⟨.start 1, .start 1, .start 1⟩, []⟩

theorem start_single : Service.start 1 = .ok single := by decide +kernel

/-- A listener of the first responder reads a datagram and sends `replies` replies to it. -/
def turn (role : Role) (replies : Nat) : List Happening :=
  [.act 0 role .acquire, .act 0 role .read] ++ List.replicate replies (.act 0 role (.send 0)) ++
    [.act 0 role (.finish 0)]

/-- A client asks from outside, and two listeners reply to it. -/
def asked : List Happening :=
  .inject 0 .primary ⟨.v4 ⟨203, 0, 113, 7⟩ 9, (Message.request .portRestrictedCheck).encode⟩ ::
    turn .primary 2

end Exchange

end NatBehaviour.Responder
