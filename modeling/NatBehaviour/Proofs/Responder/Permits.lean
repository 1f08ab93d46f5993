import NatBehaviour.Proofs.Responder.Interleaving

/-!
The permits of a listener, and what becomes of the datagrams that arrive at it. A permit is free, with the
listener, or with a handler, and no event makes or loses one; so a listener never runs more handlers than it
has permits, and a datagram that cannot be read yet waits in the queue. The ledger of a listener says of
every datagram that has arrived whether it has been read, and by which handler it is dealt with.
-/

namespace NatBehaviour.Responder

open NatBehaviour.Network (Moment SocketAddress World addressed)
open NatBehaviour.Probe (Datagram)
open NatBehaviour.Wire (Listeners Message Role)

namespace Event

def arrival? : Event → Option Datagram
  | .arrive d => some d
  | _ => none

/-- Whether a handler ends. -/
def ends : Event → Bool
  | .finish _ => true
  | _ => false

end Event

/-- The events of a run that happen at one listener. -/
def eventsAt (role : Role) (run : List (Role × Event)) : List Event :=
  (run.filter (·.1 = role)).map Prod.snd

theorem eventsAt_cons (role : Role) (event : Event) (run : List (Role × Event)) :
    eventsAt role ((role, event) :: run) = event :: eventsAt role run := by
  simp [eventsAt]

theorem eventsAt_cons_of_ne {role other : Role} (hne : other ≠ role) (event : Event)
    (run : List (Role × Event)) : eventsAt role ((other, event) :: run) = eventsAt role run := by
  simp [eventsAt, hne]

namespace Listener

/-- What a listener has done after some events: the datagrams that it has read, in the order in which they
arrived, and those of them whose handlers are still running, with what these have still to send. -/
structure Ledger (role : Role) (events : List Event) (l : Listener) (read : List Datagram)
    (running : List (Datagram × Handler)) : Prop where
  arrived : events.filterMap Event.arrival? = read ++ l.queue
  reads : read.length = events.count .read
  handlers : l.handlers = running.map Prod.snd
  inOrder : (running.map Prod.fst).Sublist read
  ended : running.length + events.countP Event.ends = read.length
  owes : ∀ p ∈ running, p.2 <:+ due role p.1

variable {role : Role} {l l' : Listener} {event : Event} {events : List Event} {sent : List Sending}
  {read : List Datagram} {running : List (Datagram × Handler)}

theorem Ledger.start (role : Role) (permits : Nat) : Ledger role [] (.start permits) [] [] :=
  ⟨rfl, rfl, rfl, .slnil, rfl, fun _ hp => absurd hp List.not_mem_nil⟩

namespace Ledger

/-- An event that concerns permits only. -/
theorem idle (h : Ledger role events l read running) (harrival : event.arrival? = none)
    (hread : event ≠ .read) (hends : event.ends = false) (hqueue : l'.queue = l.queue)
    (hhandlers : l'.handlers = l.handlers) : Ledger role (events ++ [event]) l' read running where
  arrived := by simp [harrival, h.arrived, hqueue]
  reads := by simp [h.reads, hread]
  handlers := hhandlers.trans h.handlers
  inOrder := h.inOrder
  ended := by simp [hends, h.ended]
  owes := h.owes

/-- Every event has its entry in the ledger: the first datagram of the queue is read by a handler of its own,
and a handler leaves when it has nothing left to send. -/
theorem step (h : Ledger role events l read running) (hstep : Step role l event l' sent) :
    ∃ read' running', Ledger role (events ++ [event]) l' read' running' := by
  cases hstep with
  | arrive d =>
    refine ⟨read, running, ?_, ?_, h.handlers, h.inOrder, ?_, h.owes⟩
    · simp [Event.arrival?, h.arrived]
    · simp [h.reads]
    · simp [Event.ends, h.ended]
  | acquire _ _ => exact ⟨read, running, h.idle rfl nofun rfl rfl rfl⟩
  | readFailed _ => exact ⟨read, running, h.idle rfl nofun rfl rfl rfl⟩
  | @read d queue _ hfirst =>
    refine ⟨read ++ [d], running ++ [(d, due role d)], ?_, ?_, ?_, ?_, ?_, ?_⟩
    · simp [Event.arrival?, h.arrived, hfirst]
    · simp [h.reads]
    · simp [h.handlers, answer_eq_due]
    · rw [List.map_append]
      exact h.inOrder.append (.refl [d])
    · have hended := h.ended
      simp only [List.length_append, List.length_singleton, List.countP_append, Event.ends,
        List.countP_singleton, Bool.false_eq_true, ↓reduceIte]
      omega
    · intro p hp
      rcases List.mem_append.mp hp with hp | hp
      · exact h.owes p hp
      · rw [List.mem_singleton.mp hp]
  | @send i s rest hhandler =>
    rw [h.handlers, List.getElem?_map, Option.map_eq_some_iff] at hhandler
    obtain ⟨⟨d, replies⟩, hi, rfl⟩ := hhandler
    obtain ⟨hlt, hget⟩ := List.getElem?_eq_some_iff.mp hi
    refine ⟨read, running.set i (d, rest), ?_, ?_, ?_, ?_, ?_, ?_⟩
    · simp [Event.arrival?, h.arrived]
    · simp [h.reads]
    · simp [h.handlers]
    · have hsame : (running.set i (d, rest)).map Prod.fst = running.map Prod.fst := by
        refine List.ext_getElem? fun j => ?_
        rw [List.map_set, List.getElem?_set]
        split
        · rename_i hij
          simp [← hij, hget, hlt]
        · rfl
      rw [hsame]
      exact h.inOrder
    · simp [Event.ends, h.ended]
    · intro p hp
      rcases List.mem_or_eq_of_mem_set hp with hp | rfl
      · exact h.owes p hp
      · exact (List.suffix_cons s rest).trans (h.owes _ (List.mem_of_getElem? hi))
  | @finish i hdone =>
    have hlt : i < running.length := by
      rw [← List.length_map (f := Prod.snd), ← h.handlers]
      exact (List.getElem?_eq_some_iff.mp hdone).1
    refine ⟨read, running.eraseIdx i, ?_, ?_, ?_, ?_, ?_, ?_⟩
    · simp [Event.arrival?, h.arrived]
    · simp [h.reads]
    · simp [h.handlers, List.eraseIdx_map]
    · exact ((List.eraseIdx_sublist running i).map Prod.fst).trans h.inOrder
    · have hended := h.ended
      simp only [List.length_eraseIdx_of_lt hlt, List.countP_append, Event.ends, List.countP_singleton,
        ↓reduceIte]
      omega
    · exact fun p hp => h.owes p (List.mem_of_mem_eraseIdx hp)

end Ledger

/-- What a listener reads, it reads with a permit; the handler of the datagram takes the permit over. -/
theorem step?_read (h : l.step? role .read = some (l', sent)) :
    l.holding = true ∧ ∃ d, l.queue = d :: l'.queue ∧
      l' = { l with holding := false, queue := l'.queue, handlers := l.handlers ++ [due role d] } := by
  cases step_of_step? h with
  | @read d queue hready hfirst => exact ⟨hready, d, hfirst, by rw [answer_eq_due]⟩

end Listener

namespace Service

variable {s₀ s s' : Service} {role : Role} {permits : Nat} {run : List (Role × Event)}

/-- The ledgers of a listener for what has happened at it so far go on through a run. -/
theorem ledger_steps {events : List Event} {read : List Datagram} {running : List (Datagram × Handler)}
    (h : Listener.Ledger role events (s.listeners.get role) read running) (hrun : s.steps? run = some s') :
    ∃ read' running',
      Listener.Ledger role (events ++ eventsAt role run) (s'.listeners.get role) read' running' := by
  induction run generalizing s events read running with
  | nil =>
    cases hrun
    exact ⟨read, running, by simpa [eventsAt] using h⟩
  | cons first rest ih =>
    obtain ⟨other, event⟩ := first
    obtain ⟨next, hstep, hrest⟩ := Option.bind_eq_some_iff.mp hrun
    obtain ⟨⟨l, sent⟩, hturn, rfl⟩ := Option.map_eq_some_iff.mp hstep
    by_cases hrole : other = role
    · subst hrole
      obtain ⟨read', running', hnext⟩ := h.step (Listener.step_of_step? hturn)
      have hput : (put s.listeners other l).get other = l := get_put_self _ _ _
      rw [eventsAt_cons, List.append_cons]
      exact ih (by rwa [hput]) hrest
    · have hput : (put s.listeners other l).get role = s.listeners.get role := by
        rw [get_put, if_neg (Ne.symm hrole)]
      rw [eventsAt_cons_of_ne hrole]
      exact ih (by rwa [hput]) hrest

/-- A handler can always send what it has still to send and end, whatever else the responder does or has to
do. Its permit is free then. -/
theorem exists_end {i : Nat} {replies : Handler}
    (hrunning : (s.listeners.get role).handlers[i]? = some replies) :
    ∃ s', s.steps? (List.replicate replies.length (role, .send i) ++ [(role, .finish i)]) = some s' ∧
      s'.sent = replies.reverse ++ s.sent ∧
      s'.listeners.get role =
        { s.listeners.get role with
          free := (s.listeners.get role).free + 1
          handlers := (s.listeners.get role).handlers.eraseIdx i } := by
  induction replies generalizing s with
  | nil =>
    refine ⟨⟨put s.listeners role
      { s.listeners.get role with
        free := (s.listeners.get role).free + 1
        handlers := (s.listeners.get role).handlers.eraseIdx i }, s.sent⟩, ?_, rfl, ?_⟩
    · simp [steps?, step?, Listener.step?, hrunning]
    · exact get_put_self _ _ _
  | cons reply rest ih =>
    obtain ⟨hlt, -⟩ := List.getElem?_eq_some_iff.mp hrunning
    let l : Listener :=
      { s.listeners.get role with handlers := (s.listeners.get role).handlers.set i rest }
    have hsend : s.step? role (.send i) = some ⟨put s.listeners role l, reply :: s.sent⟩ := by
      simp [step?, Listener.step?, hrunning, l]
    have hput : (put s.listeners role l).get role = l := get_put_self _ _ _
    obtain ⟨s', hrest, hsent, hend⟩ := ih (s := ⟨put s.listeners role l, reply :: s.sent⟩) (by
      rw [hput]
      exact List.getElem?_set_self hlt)
    refine ⟨s', ?_, ?_, ?_⟩
    · rw [List.length_cons, List.replicate_succ, List.cons_append, steps?, hsend]
      exact hrest
    · rw [hsent, List.reverse_cons, List.append_assoc]
      rfl
    · rw [hend]
      simp only [hput, l, List.eraseIdx_set_eq]

/-- A datagram waits for nothing but handlers: with fewer of them than permits, the listener can read it. -/
theorem exists_read (hpermits : (s.listeners.get role).permits = permits)
    (hqueue : (s.listeners.get role).queue ≠ [])
    (hcap : (s.listeners.get role).handlers.length < permits) :
    ∃ events ∈ [[.read], [.acquire, .read]], ∃ s', s.steps? (events.map (role, ·)) = some s' := by
  obtain ⟨d, queue, hfirst⟩ := List.exists_cons_of_ne_nil hqueue
  cases hholding : (s.listeners.get role).holding with
  | true =>
    refine ⟨[.read], by simp, ?_⟩
    simp [steps?, step?, Listener.step?, hholding, hfirst]
  | false =>
    have hfree : 0 < (s.listeners.get role).free := by
      simp only [Listener.permits, Listener.holds, hholding, Bool.false_eq_true, ↓reduceIte] at hpermits
      omega
    refine ⟨[.acquire, .read], by simp, ?_⟩
    simp [steps?, step?, Listener.step?, hholding, hfree, hfirst, get_put]

/-- Whatever happens at the listeners of a responder, the permits of each of them are conserved: those that
are free, the one with the listener and those of its handlers are as many as there were at the start. So no
more handlers run than that; a listener that waits for data while none runs leaves all others free. It reads
with a permit only, and every datagram that it reads gets one handler, which can always end and then gives
its permit back; of what arrives, nothing is lost, and what is queued waits for nothing but handlers. -/
theorem permits_conserved {l : Listener} (hstart : start permits = .ok s₀)
    (hrun : s₀.steps? run = some s) (hl : s.listeners.get role = l) :
    l.free + l.holds + l.handlers.length = permits ∧
    l.handlers.length ≤ permits ∧
    (l.handlers = [] → l.holding = true → l.free = permits - 1) ∧
    (∃ read running, Listener.Ledger role (eventsAt role run) l read running) ∧
    (∀ s', s.step? role .read = some s' → l.holding = true ∧ ∃ d,
      l.queue = d :: (s'.listeners.get role).queue ∧
        (s'.listeners.get role).handlers = l.handlers ++ [due role d]) ∧
    (l.queue ≠ [] → l.handlers.length < permits →
      ∃ events ∈ [[.read], [.acquire, .read]], ∃ s', s.steps? (events.map (role, ·)) = some s') ∧
    (∀ i replies, l.handlers[i]? = some replies →
      ∃ s', s.steps? (List.replicate replies.length (role, .send i) ++ [(role, .finish i)]) = some s' ∧
        s'.sent = replies.reverse ++ s.sent ∧
        s'.listeners.get role = { l with free := l.free + 1, handlers := l.handlers.eraseIdx i }) ∧
    ∀ (net : Network) (ls : Listeners SocketAddress) (d : Datagram) (w : World),
      ∃ h w', (handle ls role d).Runs net w h () w' ∧
        addressed h = (due role d).map fun s => (ls.get s.role, s.destination, s.payload) := by
  obtain ⟨-, -, hpermits⟩ := parts_start hstart
  have hconserved : l.free + l.holds + l.handlers.length = permits := by
    rw [← hpermits role, ← permits_steps hrun role, hl, Listener.permits]
  subst hl
  refine ⟨hconserved, by omega, ?_, ?_, ?_, exists_read hconserved, fun i replies => exists_end, ?_⟩
  · intro hnone hholding
    simp only [Listener.holds, hnone, hholding, ↓reduceIte, List.length_nil] at hconserved
    omega
  · have hfresh : s₀.listeners.get role = .start permits := by
      simp only [start] at hstart
      split at hstart
      · cases hstart
      · cases hstart
        cases role <;> rfl
    have hledger := Listener.Ledger.start role permits
    rw [← hfresh] at hledger
    exact ledger_steps hledger hrun
  · intro s' hread
    obtain ⟨⟨l, sent⟩, hturn, rfl⟩ := Option.map_eq_some_iff.mp hread
    obtain ⟨hholding, d, hqueue, hafter⟩ := Listener.step?_read hturn
    have hput : (put s.listeners role l).get role = l := get_put_self _ _ _
    refine ⟨hholding, d, ?_, ?_⟩
    · rw [hput, hqueue]
    · rw [hput, hafter]
  · intro net ls d w
    obtain ⟨h, u, w', hr⟩ := (handle ls role d).exists_runs w
    refine ⟨h, w', hr, ?_⟩
    rw [← answer_eq_due]
    exact sendAll_addressed hr

/-- A listener with one permit fails to receive at first; then a datagram that is too large keeps its only
handler busy while a request waits. -/
def crowded : List (Role × Event) :=
  [(.primary, .acquire), (.primary, .readFailed),
   (.primary, .arrive ⟨.v4 ⟨203, 0, 113, 7⟩ 9, List.replicate 2000 0⟩),
   (.primary, .arrive ⟨.v4 ⟨203, 0, 113, 8⟩ 9, (Message.request .portRestrictedCheck).encode⟩),
   (.primary, .acquire), (.primary, .read)]

theorem permits_conserved_crowded :
    ∃ s l, start 1 = .ok Exchange.single ∧ Exchange.single.steps? crowded = some s ∧
      s.listeners.get .primary = l ∧ l.handlers = [[]] ∧ l.queue.length = 1 ∧ l.free = 0 ∧
      l.holding = false ∧ ∃ s', s.steps? [(.primary, .finish 0)] = some s' := by
  have hends : (Exchange.single.steps? crowded).map (fun s =>
      ((s.listeners.get .primary).handlers, (s.listeners.get .primary).queue.length)) =
        some ([[]], 1) := by decide +kernel
  obtain ⟨s, hrun, heq⟩ := Option.map_eq_some_iff.mp hends
  obtain ⟨hhandlers, hqueue⟩ := Prod.mk.inj heq
  obtain ⟨hconserved, -, -, -, -, -, hend, -⟩ := permits_conserved Exchange.start_single hrun rfl
  obtain ⟨s', hs', -, -⟩ := hend 0 [] (by rw [hhandlers]; rfl)
  rw [hhandlers, List.length_singleton, Listener.holds] at hconserved
  refine ⟨s, _, Exchange.start_single, hrun, rfl, hhandlers, hqueue, by omega, ?_, s', hs'⟩
  cases hholding : (s.listeners.get .primary).holding with
  | false => rfl
  | true =>
    rw [hholding, if_pos rfl] at hconserved
    omega

end Service

end NatBehaviour.Responder
