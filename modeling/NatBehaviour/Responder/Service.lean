import NatBehaviour.Failure
import NatBehaviour.Probe.Filter
import NatBehaviour.Responder.Reply

/-!
A responder at work. Each listener reads its datagrams in turn and hands every one to a handler, which
sends the replies. A permit goes with each handler, so that a listener runs only so many at once: the
listener takes a permit before it reads, and the handler gives it back when it is done.
-/

namespace NatBehaviour.Responder

open NatBehaviour.Probe (Datagram)
open NatBehaviour.Wire (Role Listeners)

/-- The replies that a handler has still to send. -/
abbrev Handler := List Sending

structure Listener where
  free : Nat
  /-- The listener has a permit for the next datagram. -/
  holding : Bool
  /-- What has arrived and has not been read, in order of arrival. -/
  queue : List Datagram
  handlers : List Handler
  deriving DecidableEq, Repr

structure Service where
  listeners : Listeners Listener
  /-- Everything that the handlers tried to send, last one first. -/
  sent : List Sending
  deriving DecidableEq, Repr

/-- What can happen at a listener. -/
inductive Event
  | arrive (d : Datagram)
  /-- The listener takes a permit. -/
  | acquire
  /-- The listener reads a datagram and starts a handler for it. -/
  | read
  /-- Reading fails; the permit is given back. -/
  | readFailed
  /-- A handler tries to send its next reply. Whether that succeeds makes no difference. -/
  | send (handler : Nat)
  /-- A handler that has nothing left to send ends. -/
  | finish (handler : Nat)
  deriving DecidableEq, Repr

namespace Listener

def start (permits : Nat) : Listener := ⟨permits, false, [], []⟩

def holds (l : Listener) : Nat := if l.holding then 1 else 0

/-- What an event makes of a listener and what it sends; nothing if the event cannot happen. -/
def step? (role : Role) (l : Listener) : Event → Option (Listener × List Sending)
  | .arrive d => some ({ l with queue := l.queue ++ [d] }, [])
  | .acquire =>
    if !l.holding ∧ 0 < l.free then some ({ l with free := l.free - 1, holding := true }, [])
    else none
  | .read =>
    match l.holding, l.queue with
    | true, d :: queue =>
      let handler := answer role d.source d.payload
      some ({ l with holding := false, queue, handlers := l.handlers ++ [handler] }, [])
    | _, _ => none
  | .readFailed =>
    if l.holding then some ({ l with free := l.free + 1, holding := false }, []) else none
  | .send i =>
    match l.handlers[i]? with
    | some (s :: rest) => some ({ l with handlers := l.handlers.set i rest }, [s])
    | _ => none
  | .finish i =>
    match l.handlers[i]? with
    | some [] => some ({ l with free := l.free + 1, handlers := l.handlers.eraseIdx i }, [])
    | _ => none

end Listener

namespace Service

def put (ls : Listeners Listener) (role : Role) (l : Listener) : Listeners Listener :=
  match role with
  | .primary => { ls with primary := l }
  | .secondary => { ls with secondary := l }
  | .tertiary => { ls with tertiary := l }

/-- Starts the listeners. There is a limit to the permits that can be counted. -/
def start (permits : Nat) : Except Fatal Service :=
  if maxPermits < permits then .error .tooManyPermits
  else
    let l := Listener.start permits
    .ok ⟨⟨l, l, l⟩, []⟩

def step? (s : Service) (role : Role) (event : Event) : Option Service :=
  ((s.listeners.get role).step? role event).map fun (l, sent) =>
    ⟨put s.listeners role l, sent.reverse ++ s.sent⟩

/-- A sequence of events, each at one of the listeners. -/
def steps? (s : Service) : List (Role × Event) → Option Service
  | [] => some s
  | (role, event) :: rest => (s.step? role event).bind (·.steps? rest)

end Service

end NatBehaviour.Responder
