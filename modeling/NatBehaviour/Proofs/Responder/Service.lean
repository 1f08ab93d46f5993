import Mathlib.Algebra.Order.Group.Multiset
import Mathlib.Tactic.Abel
import NatBehaviour.Responder.Service

/-!
What a responder owes. A datagram that has arrived stands for its replies until they are sent: first in the
queue of its listener, then with its handler. Nothing that happens at a listener but an arrival changes the
whole of what has been sent and what is still owed, in whatever order the handlers take their turns.
-/

namespace NatBehaviour.Responder

open NatBehaviour.Net (Endpoint)
open NatBehaviour.Probe (Datagram)
open NatBehaviour.Wire (Kind Listeners Message Role received)

/-- Only a datagram that decodes is answered, and only to where it claims to come from. -/
theorem destination_of_mem_answer {receivedOn : Role} {source : Endpoint} {datagram : Json.Bytes}
    {s : Sending} (h : s ∈ answer receivedOn source datagram) :
    (∃ request, Message.decode (received datagram) = .ok request) ∧ s.destination = source := by
  unfold answer at h
  split at h
  · cases h
  · rename_i request hdecode
    obtain ⟨role, -, rfl⟩ := List.mem_map.mp h
    exact ⟨⟨request, hdecode⟩, rfl⟩

section Sums

variable {α M : Type} [AddCommMonoid M] (f : α → M)

theorem sum_map_set {xs : List α} {i : Nat} {x : α} (h : xs[i]? = some x) (y : α) :
    ((xs.set i y).map f).sum + f x = (xs.map f).sum + f y := by
  induction xs generalizing i with
  | nil => simp at h
  | cons z rest ih =>
    cases i with
    | zero =>
      obtain rfl : z = x := by simpa using h
      simp only [List.set_cons_zero, List.map_cons, List.sum_cons]
      ac_rfl
    | succ i =>
      have hrest := ih (i := i) (by simpa using h)
      simp only [List.set_cons_succ, List.map_cons, List.sum_cons]
      rw [add_assoc, hrest, add_assoc]

theorem sum_map_eraseIdx {xs : List α} {i : Nat} {x : α} (h : xs[i]? = some x) :
    ((xs.eraseIdx i).map f).sum + f x = (xs.map f).sum := by
  induction xs generalizing i with
  | nil => simp at h
  | cons z rest ih =>
    cases i with
    | zero =>
      obtain rfl : z = x := by simpa using h
      simp only [List.eraseIdx_cons_zero, List.map_cons, List.sum_cons]
      ac_rfl
    | succ i =>
      have hrest := ih (i := i) (by simpa using h)
      simp only [List.eraseIdx_cons_succ, List.map_cons, List.sum_cons]
      rw [add_assoc, hrest]

end Sums

/-- What an event brings in: the replies to a datagram that arrives, and nothing otherwise. -/
def Event.brings (role : Role) : Event → Multiset Sending
  | .arrive d => answer role d.source d.payload
  | _ => 0

namespace Listener

/-- A step of a listener, with one case for each event and the condition under which it can happen. -/
inductive Step (role : Role) (l : Listener) : Event → Listener → List Sending → Prop
  | arrive (d : Datagram) : Step role l (.arrive d) { l with queue := l.queue ++ [d] } []
  | acquire (idle : l.holding = false) (permit : 0 < l.free) :
      Step role l .acquire { l with free := l.free - 1, holding := true } []
  | read {d : Datagram} {queue : List Datagram} (ready : l.holding = true)
      (first : l.queue = d :: queue) :
      Step role l .read
        { l with
          holding := false, queue
          handlers := l.handlers ++ [answer role d.source d.payload] } []
  | readFailed (ready : l.holding = true) :
      Step role l .readFailed { l with free := l.free + 1, holding := false } []
  | send {i : Nat} {s : Sending} {rest : Handler} (running : l.handlers[i]? = some (s :: rest)) :
      Step role l (.send i) { l with handlers := l.handlers.set i rest } [s]
  | finish {i : Nat} (done : l.handlers[i]? = some []) :
      Step role l (.finish i) { l with free := l.free + 1, handlers := l.handlers.eraseIdx i } []

variable {role : Role} {l l' : Listener} {event : Event} {sent : List Sending}

theorem step_of_step? (h : l.step? role event = some (l', sent)) : Step role l event l' sent := by
  cases event with
  | arrive d =>
    cases h
    exact .arrive d
  | acquire =>
    simp only [step?, Option.ite_none_right_eq_some, Option.some.injEq, Prod.mk.injEq] at h
    obtain ⟨⟨hidle, hpermit⟩, rfl, rfl⟩ := h
    exact .acquire (by simpa using hidle) hpermit
  | read =>
    simp only [step?] at h
    split at h
    · rename_i d queue hready hfirst
      cases h
      exact .read hready hfirst
    · cases h
  | readFailed =>
    simp only [step?, Option.ite_none_right_eq_some, Option.some.injEq, Prod.mk.injEq] at h
    obtain ⟨hready, rfl, rfl⟩ := h
    exact .readFailed hready
  | send i =>
    simp only [step?] at h
    split at h
    · rename_i s rest hrunning
      cases h
      exact .send hrunning
    · cases h
  | finish i =>
    simp only [step?] at h
    split at h
    · rename_i hdone
      cases h
      exact .finish hdone
    · cases h

/-- The replies that a listener has still to send, counting those to datagrams that it has not read. -/
def owed (role : Role) (l : Listener) : Multiset Sending :=
  (l.queue.map fun d => Multiset.ofList (answer role d.source d.payload)).sum +
    (l.handlers.map Multiset.ofList).sum

@[simp] theorem owed_start (role : Role) (permits : Nat) : (start permits).owed role = 0 := rfl

/-- A reply moves from the queue to a handler and from there to what is sent; it is never lost, copied or
made up on the way. -/
theorem Step.owed (h : Step role l event l' sent) :
    (sent : Multiset Sending) + l'.owed role = event.brings role + l.owed role := by
  cases h with
  | arrive d =>
    simp only [Listener.owed, Event.brings, List.map_append, List.map_cons, List.map_nil,
      List.sum_append, List.sum_cons, List.sum_nil, Multiset.coe_nil]
    abel
  | acquire => simp [Listener.owed, Event.brings]
  | read _ hfirst =>
    simp only [Listener.owed, Event.brings, hfirst, List.map_append, List.map_cons, List.map_nil,
      List.sum_append, List.sum_cons, List.sum_nil, Multiset.coe_nil]
    abel
  | readFailed => simp [Listener.owed, Event.brings]
  | @send i s rest hrunning =>
    have hmoved := sum_map_set Multiset.ofList hrunning rest
    have hsplit : ((s :: rest : Handler) : Multiset Sending) = ([s] : List Sending) + rest := by
      rw [Multiset.coe_add]
      rfl
    rw [hsplit, ← add_assoc] at hmoved
    have hhandlers := add_right_cancel hmoved
    simp only [Listener.owed, Event.brings]
    rw [← hhandlers]
    abel
  | finish hdone =>
    have hmoved := sum_map_eraseIdx Multiset.ofList hdone
    simp only [Listener.owed, Event.brings, ← hmoved, Multiset.coe_nil]
    abel

/-- The permits of a listener: those that are free, the one for the next datagram, and those of its
handlers. -/
def permits (l : Listener) : Nat := l.free + l.holds + l.handlers.length

theorem Step.permits (h : Step role l event l' sent) : l'.permits = l.permits := by
  cases h with
  | arrive d => rfl
  | acquire hidle hpermit =>
    simp only [Listener.permits, holds, hidle, Bool.false_eq_true, ↓reduceIte]
    omega
  | read hready hfirst =>
    simp only [Listener.permits, holds, hready, List.length_append, List.length_singleton,
      Bool.false_eq_true, ↓reduceIte]
    omega
  | readFailed hready => simp [Listener.permits, holds, hready]
  | send hrunning => simp [Listener.permits, holds]
  | @finish i hdone =>
    have hi : i < l.handlers.length := (List.getElem?_eq_some_iff.mp hdone).1
    simp only [Listener.permits, holds, List.length_eraseIdx_of_lt hi]
    omega

end Listener

namespace Service

variable {s s' : Service} {role : Role} {event : Event}

/-- What a responder has sent and what it has still to send. -/
def account (s : Service) : Multiset Sending :=
  s.sent + (Role.all.map fun role => (s.listeners.get role).owed role).sum

/-- Putting another listener in place of one changes one term of a sum over the listeners. -/
theorem exists_sum_map_put {M : Type} [AddCommMonoid M] (f : Role → Listener → M)
    (ls : Listeners Listener) (role : Role) :
    ∃ others, (Role.all.map fun r => f r (ls.get r)).sum = f role (ls.get role) + others ∧
      ∀ l, (Role.all.map fun r => f r ((put ls role l).get r)).sum = f role l + others := by
  simp only [Role.all, List.map_cons, List.map_nil, List.sum_cons, List.sum_nil]
  cases role with
  | primary => exact ⟨_, rfl, fun _ => rfl⟩
  | secondary =>
    refine ⟨f .primary ls.primary + f .tertiary ls.tertiary, ?_, fun l => ?_⟩
    · simp only [Listeners.get]
      abel
    · simp only [put, Listeners.get]
      abel
  | tertiary =>
    refine ⟨f .primary ls.primary + f .secondary ls.secondary, ?_, fun l => ?_⟩
    · simp only [Listeners.get]
      abel
    · simp only [put, Listeners.get]
      abel

theorem get_put (ls : Listeners Listener) (role other : Role) (l : Listener) :
    (put ls role l).get other = if other = role then l else ls.get other := by
  cases role <;> cases other <;> rfl

theorem get_put_self (ls : Listeners Listener) (role : Role) (l : Listener) : (put ls role l).get role = l := by
  rw [get_put, if_pos rfl]

/-- The account grows by the replies to what arrives and by nothing else. -/
theorem account_step (h : s.step? role event = some s') :
    s'.account = event.brings role + s.account := by
  obtain ⟨⟨l, sent⟩, hstep, rfl⟩ := Option.map_eq_some_iff.mp h
  have howed := (Listener.step_of_step? hstep).owed
  obtain ⟨others, hbefore, hafter⟩ := exists_sum_map_put (fun r l => l.owed r) s.listeners role
  simp only [account]
  rw [hafter, hbefore, ← Multiset.coe_add, Multiset.coe_reverse]
  calc _ = (s.sent : Multiset Sending) + (sent + l.owed role) + others := by abel
    _ = _ := by
      rw [howed]
      abel

/-- No step at one listener makes or loses a permit of any. -/
theorem permits_step (h : s.step? role event = some s') (other : Role) :
    (s'.listeners.get other).permits = (s.listeners.get other).permits := by
  obtain ⟨⟨l, sent⟩, hstep, rfl⟩ := Option.map_eq_some_iff.mp h
  rw [get_put]
  split
  · rename_i heq
    rw [heq]
    exact (Listener.step_of_step? hstep).permits
  · rfl

end Service

end NatBehaviour.Responder
