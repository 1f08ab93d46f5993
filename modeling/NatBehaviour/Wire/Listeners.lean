import NatBehaviour.Json.Record
import NatBehaviour.Json.Value
import NatBehaviour.Net.Endpoint

/-!
The three listeners of a responder. Every probe is sent to the primary one; the secondary one sends
unsolicited replies, and the tertiary one plays an unrelated second peer.
-/

namespace NatBehaviour.Wire

open NatBehaviour.Json (Reader Record Member Value Variants)
open NatBehaviour.Net (Endpoint)

inductive Role
  | primary
  | secondary
  | tertiary
  deriving DecidableEq, Repr

namespace Role

/-- All roles, in the order in which their listeners are bound. -/
def all : List Role := [.primary, .secondary, .tertiary]

def name : Role → String
  | .primary => "Primary"
  | .secondary => "Secondary"
  | .tertiary => "Tertiary"

def variants : Variants Role := ⟨all, name⟩

end Role

/-- One thing for each listener. -/
structure Listeners (α : Type) where
  primary : α
  secondary : α
  tertiary : α
  deriving DecidableEq, Repr

namespace Listeners

variable {α β : Type}

def get (ls : Listeners α) : Role → α
  | .primary => ls.primary
  | .secondary => ls.secondary
  | .tertiary => ls.tertiary

def map (f : α → β) (ls : Listeners α) : Listeners β :=
  ⟨f ls.primary, f ls.secondary, f ls.tertiary⟩

def toList (ls : Listeners α) : List α := [ls.primary, ls.secondary, ls.tertiary]

end Listeners

def readEndpoint : Reader Endpoint :=
  .accept (fun s => (Endpoint.ofString? s).elim (.error "invalid socket address syntax") .ok)
    (Json.readTextAs "socket address")

/-- The addresses of the three listeners, as a record. -/
def addressRecord : Record (Listeners Endpoint) where
  name := "ResponderAddrs"
  initial := let e := Endpoint.v4 .unspecified 0; ⟨e, e, e⟩
  complete := false
  members :=
    [.of "primary" readEndpoint fun e ls => { ls with primary := e },
     .of "secondary" readEndpoint fun e ls => { ls with secondary := e },
     .of "tertiary" readEndpoint fun e ls => { ls with tertiary := e }]

def addressValue (ls : Listeners Endpoint) : Value :=
  .object
    [("primary", .text ls.primary.text), ("secondary", .text ls.secondary.text),
     ("tertiary", .text ls.tertiary.text)]

end NatBehaviour.Wire
