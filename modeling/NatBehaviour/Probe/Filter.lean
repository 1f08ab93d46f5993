import NatBehaviour.Wire.Message

/-!
What a client makes of the datagrams that arrive. Those from a source that it does not accept are
passed over without a trace; of the others, only the first that decodes ends the wait.
-/

namespace NatBehaviour.Probe

open NatBehaviour.Json (Bytes)
open NatBehaviour.Net (Endpoint)
open NatBehaviour.Wire (Message received)

structure Datagram where
  source : Endpoint
  payload : Bytes
  deriving DecidableEq, Repr

/-- Whose replies count. -/
inductive Filter
  | any
  | only (source : Endpoint)
  deriving DecidableEq, Repr

/-- What one datagram is to the client that waits. -/
inductive Judgement
  | ignored
  | undecodable
  | usable (reply : Message)
  deriving DecidableEq, Repr

namespace Filter

def accepts (f : Filter) (source : Endpoint) : Bool :=
  match f with
  | .any => true
  | .only expected => source = expected

def judge (f : Filter) (d : Datagram) : Judgement :=
  if f.accepts d.source then
    match Message.decode (received d.payload) with
    | .ok reply => .usable reply
    | .error _ => .undecodable
  else .ignored

/-- The outcome of going through an inbox. -/
inductive Scan
  | found (reply : Message) (rest : List Datagram)
  | exhausted (sawUndecodable : Bool)
  deriving DecidableEq, Repr

/-- Goes through an inbox up to the first usable reply. -/
def scan (f : Filter) (sawUndecodable : Bool) : List Datagram → Scan
  | [] => .exhausted sawUndecodable
  | d :: ds =>
    match f.judge d with
    | .ignored => f.scan sawUndecodable ds
    | .undecodable => f.scan true ds
    | .usable reply => .found reply ds

end Filter

/-- What a wait for a reply comes to. -/
inductive Reading
  | reply (message : Message)
  | onlyUndecodable
  | nothing
  deriving DecidableEq, Repr

/-- A wait that ends without a usable reply. -/
def Reading.ofSilence (sawUndecodable : Bool) : Reading :=
  if sawUndecodable then .onlyUndecodable else .nothing

end NatBehaviour.Probe
