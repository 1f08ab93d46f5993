import NatBehaviour.OsError
import NatBehaviour.Probe.Filter

/-!
Programs that use the network: trees of actions, each followed by what to do with its answer. A
program says nothing about who answers; `World` answers from a model of the network, and the command
line from the operating system.
-/

namespace NatBehaviour.Network

open NatBehaviour.Json (Bytes)
open NatBehaviour.Net (Ip Endpoint)
open NatBehaviour.Probe (Filter Reading)

/-- A socket is known by the address that it is bound to. -/
abbrev SocketAddress := Endpoint

inductive Action
  | resolve (host : String) (port : UInt16)
  | bind (address : Endpoint)
  | close (socket : SocketAddress)
  /-- Which address of its own the system uses towards a destination. -/
  | route (socket : SocketAddress) (destination : Endpoint)
  | send (socket : SocketAddress) (destination : Endpoint) (payload : Bytes)
  | await (socket : SocketAddress) (timeoutMs : Nat) (filter : Filter)
  /-- The time in milliseconds. -/
  | clock
  deriving DecidableEq, Repr

abbrev Action.Answer : Action → Type
  | .resolve _ _ => List Endpoint
  | .bind _ => Except OsError SocketAddress
  | .close _ => Unit
  | .route _ _ => Option Ip
  | .send _ _ _ => Bool
  | .await _ _ _ => Reading
  | .clock => Nat

inductive Program (α : Type) : Type
  | done (a : α)
  | act (action : Action) (next : action.Answer → Program α)

namespace Program

variable {α β : Type}

def bind : Program α → (α → Program β) → Program β
  | done a, f => f a
  | act action next, f => act action fun answer => (next answer).bind f

instance : Monad Program where
  pure := done
  bind := bind

/-- Takes one action and returns its answer. -/
def perform (action : Action) : Program action.Answer := act action done

end Program

end NatBehaviour.Network
