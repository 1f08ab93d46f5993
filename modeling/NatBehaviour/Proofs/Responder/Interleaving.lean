import Mathlib.Algebra.BigOperators.Group.Multiset.Basic
import Mathlib.Data.List.Perm.Basic
import NatBehaviour.Proofs.Network.Transmissions
import NatBehaviour.Proofs.Responder.Exchange

/-!
What a responder has sent once it is idle. Handlers take their turns in any order, but each of them sends its
replies in the order of the plan; so what is sent is an interleaving of the replies to the datagrams that have
arrived. Every responder can become idle again without any further arrival.
-/

namespace NatBehaviour.Responder

open NatBehaviour.Json (Bytes)
open NatBehaviour.Network (Moment SocketAddress World addressed)
open NatBehaviour.Probe (Datagram)
open NatBehaviour.Wire (Listeners Message Role received)

/-! ## What a datagram is due -/

/-- The replies that a datagram asks for, as all of its bytes say. -/
def due (receivedOn : Role) (d : Datagram) : List Sending :=
  match Message.decode d.payload with
  | .error _ => []
  | .ok request =>
    (replyPlan request.kind receivedOn).map fun role =>
      ⟨role, d.source, (Message.reply request.kind d.source).encode⟩

/-- It does not matter that a listener has read no more than what fits into its buffer. -/
theorem answer_eq_due (receivedOn : Role) (d : Datagram) :
    answer receivedOn d.source d.payload = due receivedOn d := by
  unfold answer due
  cases hall : Message.decode d.payload with
  | ok request =>
    rw [Message.decode_received_eq_ok_iff.mpr hall]
    rfl
  | error e =>
    cases hread : Message.decode (received d.payload) with
    | ok request =>
      rw [Message.decode_received_eq_ok_iff.mp hread] at hall
      cases hall
    | error e' => rfl

/-- All replies are tried, whichever of them cannot be sent. -/
theorem sendAll_addressed {net : Network} {ls : Listeners SocketAddress} {replies : List Sending}
    {w w' : World} {h : List Moment} {u : Unit} (hr : (sendAll ls replies).Runs net w h u w') :
    addressed h = replies.map fun s => (ls.get s.role, s.destination, s.payload) := by
  induction replies generalizing w h with
  | nil =>
    obtain ⟨rfl, -, -⟩ := hr.pure
    rfl
  | cons s rest ih =>
    obtain ⟨h₁, h₂, sent, w₁, rfl, hsend, hrest⟩ := hr.bind
    obtain ⟨rfl, -⟩ := hsend.perform
    rw [Network.addressed_append, ih hrest]
    rfl

/-! ## Interleavings -/

section Interleavings

variable {α : Type} {parts parts' others : Multiset (List α)} {part sent whole : List α}

/-- Some lists are merged into one, each of them in its own order. -/
inductive Interleaves : Multiset (List α) → List α → Prop
  | done {parts : Multiset (List α)} (nothing : ∀ part ∈ parts, part = []) : Interleaves parts []
  | next {a : α} {rest whole : List α} {others : Multiset (List α)}
    (merged : Interleaves (rest ::ₘ others) whole) : Interleaves ((a :: rest) ::ₘ others) (a :: whole)

namespace Interleaves

theorem cons_nil (h : Interleaves parts whole) : Interleaves ([] ::ₘ parts) whole := by
  induction h with
  | done nothing => exact .done (by simpa using nothing)
  | next merged ih =>
    rw [Multiset.cons_swap] at ih ⊢
    exact .next ih

theorem coe_eq_sum (h : Interleaves parts whole) :
    (whole : Multiset α) = (parts.map Multiset.ofList).sum := by
  induction h with
  | done nothing =>
    refine (Multiset.sum_eq_zero ?_).symm
    intro m hm
    obtain ⟨part, hpart, rfl⟩ := Multiset.mem_map.mp hm
    rw [nothing part hpart, Multiset.coe_nil]
  | next merged ih =>
    rw [← Multiset.cons_coe, ih]
    simp only [Multiset.map_cons, Multiset.sum_cons, ← Multiset.cons_coe, Multiset.cons_add]

theorem sublist (h : Interleaves parts whole) (hpart : part ∈ parts) : part.Sublist whole := by
  induction h generalizing part with
  | done nothing => rw [nothing part hpart]
  | @next a rest whole others merged ih =>
    rcases Multiset.mem_cons.mp hpart with rfl | hpart
    · exact (ih (Multiset.mem_cons_self rest others)).cons_cons a
    · exact (ih (Multiset.mem_cons_of_mem hpart)).cons a

end Interleaves

/-- A turn of some lists that are merged: nothing, the first element of one of them, or the end of one. -/
inductive Advance : Multiset (List α) → List α → Multiset (List α) → Prop
  | idle (parts : Multiset (List α)) : Advance parts [] parts
  | emit (a : α) (rest : List α) (others : Multiset (List α)) :
    Advance ((a :: rest) ::ₘ others) [a] (rest ::ₘ others)
  | drop (parts : Multiset (List α)) : Advance ([] ::ₘ parts) [] parts

namespace Advance

theorem of_eq (h : parts = parts') : Advance parts [] parts' := h ▸ .idle parts

theorem interleaves (h : Advance parts sent parts') (hrest : Interleaves parts' whole) :
    Interleaves parts (sent ++ whole) := by
  cases h with
  | idle => exact hrest
  | emit a rest others => exact .next hrest
  | drop => exact hrest.cons_nil

theorem add_right (h : Advance parts sent parts') (others : Multiset (List α)) :
    Advance (parts + others) sent (parts' + others) := by
  cases h with
  | idle => exact .idle _
  | emit a rest others' =>
    rw [Multiset.cons_add, Multiset.cons_add]
    exact .emit a rest _
  | drop =>
    rw [Multiset.cons_add]
    exact .drop _

end Advance

end Interleavings

/-! ## Runs of a responder -/

/-- The replies to a datagram that arrives are one more list to be merged. -/
def Event.part (role : Role) : Event → Multiset (List Sending)
  | .arrive d => {answer role d.source d.payload}
  | _ => 0

/-- Everything that arrives in a run, in order. -/
def arrivals (run : List (Role × Event)) : List (Role × Datagram) :=
  run.filterMap fun
    | (role, .arrive d) => some (role, d)
    | _ => none

/-- The replies to what arrives in a run. -/
def parts (run : List (Role × Event)) : Multiset (List Sending) :=
  (arrivals run).map fun (role, d) => answer role d.source d.payload

theorem arrivals_cons (first : Role × Event) (run : List (Role × Event)) :
    arrivals (first :: run) = arrivals [first] ++ arrivals run := by
  rw [← List.singleton_append, arrivals, List.filterMap_append, arrivals, arrivals]

theorem parts_cons (role : Role) (event : Event) (run : List (Role × Event)) :
    parts ((role, event) :: run) = event.part role + parts run := by
  cases event <;> simp [parts, arrivals, Event.part]

namespace Listener

variable {role : Role} {l l' : Listener} {event : Event} {sent : List Sending}

/-- What a listener has still to send, reply list by reply list. -/
def parts (role : Role) (l : Listener) : Multiset (List Sending) :=
  l.queue.map (fun d => answer role d.source d.payload) + (l.handlers : Multiset (List Sending))

theorem coe_of_getElem? {α : Type} {xs : List α} {i : Nat} {x : α} (h : xs[i]? = some x) :
    (xs : Multiset α) = x ::ₘ (xs.eraseIdx i : Multiset α) := by
  obtain ⟨hi, rfl⟩ := List.getElem?_eq_some_iff.mp h
  exact (Multiset.coe_eq_coe.mpr (List.getElem_cons_eraseIdx_perm hi)).symm

/-- What a listener does is a turn of its reply lists, to which those of an arrival are added. -/
theorem Step.advance (h : Step role l event l' sent) :
    Advance (event.part role + l.parts role) sent (l'.parts role) := by
  cases h with
  | arrive d =>
    refine .of_eq ?_
    rw [parts, parts, List.map_append, ← Multiset.coe_add, add_right_comm]
    exact add_comm _ _
  | acquire => exact .of_eq (zero_add _)
  | readFailed => exact .of_eq (zero_add _)
  | @read d queue _ hfirst =>
    refine .of_eq ((zero_add _).trans ?_)
    rw [parts, parts, hfirst, ← Multiset.coe_add]
    simp only [List.map_cons, ← Multiset.cons_coe, Multiset.cons_add, Multiset.add_cons,
      Multiset.coe_nil, add_zero]
  | @send i s rest hrunning =>
    have hi : i < l.handlers.length := (List.getElem?_eq_some_iff.mp hrunning).1
    have hafter : (l.handlers.set i rest : Multiset (List Sending)) = rest ::ₘ l.handlers.eraseIdx i :=
      Multiset.coe_eq_coe.mpr (List.set_perm_cons_eraseIdx hi rest)
    simp only [Event.part, parts, coe_of_getElem? hrunning, hafter, zero_add, Multiset.add_cons]
    exact .emit s rest _
  | finish hdone =>
    simp only [Event.part, parts, coe_of_getElem? hdone, zero_add, Multiset.add_cons]
    exact .drop _

/-- A listener that has read everything and whose handlers have all ended. -/
def Idle (l : Listener) : Prop := l.queue = [] ∧ l.handlers = []

theorem Idle.parts (h : l.Idle) (role : Role) : l.parts role = 0 := by
  rw [Listener.parts, h.1, h.2]
  rfl

/-- The number of steps that a listener is away from holding a permit with nothing to do: three for each
datagram that it has to read, one for each reply, and one for the end of each handler. -/
def work (role : Role) (l : Listener) : Nat :=
  (l.queue.map fun d => (answer role d.source d.payload).length + 3).sum +
    (l.handlers.map fun replies => replies.length + 1).sum + (1 - l.holds)

/-- A listener that has permits and is not idle can take a step that brings it closer to that, whatever
arrives or not. -/
theorem exists_step (role : Role) (hpermits : 0 < l.permits) (hbusy : ¬ l.Idle) :
    ∃ event l' sent, l.step? role event = some (l', sent) ∧ arrivals [(role, event)] = [] ∧
      l'.work role + 1 = l.work role := by
  cases hhandlers : l.handlers with
  | cons replies others =>
    cases replies with
    | nil =>
      refine ⟨.finish 0, { l with free := l.free + 1, handlers := others }, [], ?_, rfl, ?_⟩
      · simp [step?, hhandlers]
      · simp only [work, holds, hhandlers, List.map_cons, List.sum_cons, List.length_nil]
        omega
    | cons s rest =>
      refine ⟨.send 0, { l with handlers := rest :: others }, [s], ?_, rfl, ?_⟩
      · simp [step?, hhandlers]
      · simp only [work, holds, hhandlers, List.map_cons, List.sum_cons, List.length_cons]
        omega
  | nil =>
    cases hqueue : l.queue with
    | nil => exact absurd ⟨hqueue, hhandlers⟩ hbusy
    | cons d queue =>
      cases hholding : l.holding with
      | true =>
        refine ⟨.read, { l with holding := false, queue, handlers := [answer role d.source d.payload] }, [],
          ?_, rfl, ?_⟩
        · simp [step?, hholding, hqueue, hhandlers]
        · simp only [work, holds, hhandlers, hqueue, hholding, List.map_cons, List.map_nil, List.sum_cons,
            List.sum_nil, Bool.false_eq_true, ↓reduceIte]
          omega
      | false =>
        have hfree : 0 < l.free := by
          simpa [permits, holds, hholding, hhandlers] using hpermits
        refine ⟨.acquire, { l with free := l.free - 1, holding := true }, [], ?_, rfl, ?_⟩
        · simp [step?, hholding, hfree]
        · simp [work, holds, hholding]

end Listener

namespace Service

variable {s s' : Service} {role : Role} {event : Event} {run : List (Role × Event)}

/-- What a responder has still to send, reply list by reply list. -/
def parts (s : Service) : Multiset (List Sending) :=
  (Role.all.map fun role => (s.listeners.get role).parts role).sum

/-- All listeners are idle. -/
def Idle (s : Service) : Prop := ∀ role, (s.listeners.get role).Idle

theorem Idle.parts (h : s.Idle) : s.parts = 0 := by
  refine List.sum_eq_zero fun m hm => ?_
  obtain ⟨role, -, rfl⟩ := List.mem_map.mp hm
  exact (h role).parts role

theorem parts_start {permits : Nat} (h : start permits = .ok s) :
    s.parts = 0 ∧ s.sent = [] ∧ ∀ role, (s.listeners.get role).permits = permits := by
  simp only [start] at h
  split at h
  · cases h
  · cases h
    refine ⟨rfl, rfl, fun role => ?_⟩
    cases role <;> rfl

/-- A step at one listener is a turn of all reply lists. -/
theorem advance_step (h : s.step? role event = some s') :
    ∃ sent, s'.sent.reverse = s.sent.reverse ++ sent ∧
      Advance (event.part role + s.parts) sent s'.parts := by
  obtain ⟨⟨l, sent⟩, hstep, rfl⟩ := Option.map_eq_some_iff.mp h
  obtain ⟨others, hbefore, hafter⟩ := exists_sum_map_put (fun r l => l.parts r) s.listeners role
  have hadvance := (Listener.step_of_step? hstep).advance.add_right others
  refine ⟨sent, by simp, ?_⟩
  rw [parts, parts, hbefore, hafter, ← add_assoc]
  exact hadvance

/-- From any state, a run that ends idle sends an interleaving of what was still to be sent and of the
replies to what arrives. -/
theorem interleaves_steps (hrun : s.steps? run = some s') (hidle : s'.Idle) :
    ∃ whole, s'.sent.reverse = s.sent.reverse ++ whole ∧ Interleaves (Responder.parts run + s.parts) whole := by
  induction run generalizing s with
  | nil =>
    cases hrun
    refine ⟨[], (List.append_nil _).symm, .done ?_⟩
    rw [hidle.parts]
    exact fun part hpart => absurd hpart (Multiset.notMem_zero part)
  | cons first rest ih =>
    obtain ⟨role, event⟩ := first
    obtain ⟨next, hstep, hrest⟩ := Option.bind_eq_some_iff.mp hrun
    obtain ⟨sent, hsent, hadvance⟩ := advance_step hstep
    obtain ⟨whole, hwhole, hinterleaves⟩ := ih hrest
    refine ⟨sent ++ whole, by rw [hwhole, hsent, List.append_assoc], ?_⟩
    have hall := (hadvance.add_right (Responder.parts rest)).interleaves (by rwa [add_comm])
    rw [parts_cons, add_right_comm]
    exact hall

theorem permits_steps (hrun : s.steps? run = some s') (role : Role) :
    (s'.listeners.get role).permits = (s.listeners.get role).permits := by
  induction run generalizing s with
  | nil =>
    cases hrun
    rfl
  | cons first rest ih =>
    obtain ⟨next, hstep, hrest⟩ := Option.bind_eq_some_iff.mp hrun
    rw [ih hrest, permits_step hstep]

/-- The number of steps that a responder is away from having nothing to do. -/
def work (s : Service) : Nat := (Role.all.map fun role => (s.listeners.get role).work role).sum

theorem exists_step (hpermits : ∀ role, 0 < (s.listeners.get role).permits) (hbusy : ¬ s.Idle) :
    ∃ role event s', s.step? role event = some s' ∧ arrivals [(role, event)] = [] ∧
      s'.work + 1 = s.work := by
  obtain ⟨role, hrole⟩ := not_forall.mp hbusy
  obtain ⟨event, l, sent, hstep, hsilent, hwork⟩ := Listener.exists_step role (hpermits role) hrole
  obtain ⟨others, hbefore, hafter⟩ := exists_sum_map_put (fun r l => l.work r) s.listeners role
  refine ⟨role, event, ⟨put s.listeners role l, sent.reverse ++ s.sent⟩, by rw [step?, hstep]; rfl, hsilent, ?_⟩
  rw [work, work, hbefore, hafter]
  omega

/-- A responder that has permits becomes idle if its listeners and handlers take enough steps, even if
nothing more arrives. -/
theorem exists_idle (hpermits : ∀ role, 0 < (s.listeners.get role).permits) :
    ∃ rest s', arrivals rest = [] ∧ s.steps? rest = some s' ∧ s'.Idle := by
  induction hn : s.work using Nat.strong_induction_on generalizing s with
  | _ n ih =>
    by_cases hidle : s.Idle
    · exact ⟨[], s, rfl, rfl, hidle⟩
    · obtain ⟨role, event, next, hstep, hsilent, hwork⟩ := exists_step hpermits hidle
      obtain ⟨rest, s', hrest, hsteps, hdone⟩ := ih next.work (by omega)
        (fun r => by rw [permits_step hstep]; exact hpermits r) rfl
      refine ⟨(role, event) :: rest, s', ?_, ?_, hdone⟩
      · rw [arrivals_cons, hsilent, hrest, List.append_nil]
      · rw [steps?, hstep]
        exact hsteps

/-- Whatever arrives at the listeners of a responder, and in whatever order they and their handlers take
their turns: once all of them are idle, the responder has tried to send just the replies that are due to each
datagram that decodes, those to one datagram in the order of the plan. It always can become idle, and a
handler tries all its replies, each from the socket of its listener, whichever of them cannot be sent. -/
theorem serves_all {permits : Nat} {s₀ : Service} (hstart : start permits = .ok s₀)
    (hrun : s₀.steps? run = some s) :
    (s.Idle →
      (s.sent : Multiset Sending) =
        ((arrivals run).map fun (role, d) => Multiset.ofList (due role d)).sum ∧
      Interleaves ((arrivals run).map fun (role, d) => due role d) s.sent.reverse ∧
      ∀ a ∈ arrivals run, (due a.1 a.2).Sublist s.sent.reverse) ∧
    (0 < permits → ∃ rest s', arrivals rest = [] ∧ s.steps? rest = some s' ∧ s'.Idle) ∧
    (∀ (net : Network) (ls : Listeners SocketAddress) (role : Role) (d : Datagram) (w : World) (h : List Moment)
        (w' : World), (handle ls role d).Runs net w h () w' →
      addressed h = (due role d).map fun s => (ls.get s.role, s.destination, s.payload)) ∧
    ∀ (datagram : Bytes) (m : Message),
      Message.decode (received datagram) = .ok m ↔ Message.decode datagram = .ok m := by
  obtain ⟨hparts, hsent, hpermits⟩ := parts_start hstart
  refine ⟨?_, ?_, ?_, fun _ _ => Message.decode_received_eq_ok_iff⟩
  · intro hidle
    obtain ⟨whole, hwhole, hmerged⟩ := interleaves_steps hrun hidle
    rw [hsent, List.reverse_nil, List.nil_append] at hwhole
    rw [hparts, add_zero, ← hwhole, Responder.parts] at hmerged
    simp only [answer_eq_due] at hmerged
    refine ⟨?_, hmerged, fun a ha => hmerged.sublist ?_⟩
    · have hsum := hmerged.coe_eq_sum
      rw [Multiset.coe_reverse, Multiset.map_coe, Multiset.sum_coe, List.map_map] at hsum
      exact hsum
    · exact Multiset.mem_coe.mpr (List.mem_map.mpr ⟨a, ha, rfl⟩)
  · intro hpos
    exact exists_idle fun role => by rwa [permits_steps hrun role, hpermits role]
  · intro net ls role d w h w' hr
    rw [← answer_eq_due]
    exact sendAll_addressed hr

/-- Two listeners have two replies to send each, which they do in turn; a datagram that does not decode
arrives in between. -/
def mixed : List (Role × Event) :=
  let asked := (Message.request .portRestrictedCheck).encode
  [(.primary, .arrive ⟨.v4 ⟨203, 0, 113, 7⟩ 9, asked⟩), (.secondary, .arrive ⟨.v4 ⟨203, 0, 113, 8⟩ 9, asked⟩),
   (.primary, .arrive ⟨.v4 ⟨203, 0, 113, 8⟩ 9, []⟩), (.primary, .acquire), (.secondary, .acquire),
   (.primary, .read), (.secondary, .read), (.primary, .send 0), (.secondary, .send 0), (.primary, .send 0),
   (.secondary, .send 0), (.primary, .finish 0), (.primary, .acquire), (.primary, .read),
   (.primary, .finish 0), (.secondary, .finish 0)]

theorem serves_all_mixed :
    ∃ s, Service.start 1 = .ok Exchange.single ∧ Exchange.single.steps? mixed = some s ∧ s.Idle ∧
      Interleaves ((arrivals mixed).map fun (role, d) => due role d) s.sent.reverse ∧
      s.sent.length = 4 := by
  have hends : (Exchange.single.steps? mixed).map (fun s => (s.listeners, s.sent.length)) =
      some (Exchange.single.listeners, 4) := by decide +kernel
  obtain ⟨s, hrun, heq⟩ := Option.map_eq_some_iff.mp hends
  obtain ⟨hlisteners, hlength⟩ := Prod.mk.inj heq
  have hidle : s.Idle := by
    intro role
    rw [hlisteners]
    cases role <;> exact ⟨rfl, rfl⟩
  obtain ⟨hserved, -⟩ := serves_all Exchange.start_single hrun
  exact ⟨s, Exchange.start_single, hrun, hidle, (hserved hidle).2.1, hlength⟩

end Service

end NatBehaviour.Responder
