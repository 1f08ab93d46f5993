import NatBehaviour.Json.Record
import NatBehaviour.Json.Value
import NatBehaviour.Net.Endpoint

/-!
The message that is exchanged in both directions, one to a datagram. A request says which replies it
asks for; a reply says in addition from where the request was seen to come.
-/

namespace NatBehaviour.Wire

open NatBehaviour.Json (Bytes Cause Reader Record Member Value)
open NatBehaviour.Net (Endpoint)
open NatBehaviour.Text

/-- Which replies a request asks for. -/
inductive Kind
  /-- An echo from the listener that receives the request. -/
  | ping
  /-- A reply from the secondary listener to a host that seems to be public. -/
  | publicCheck
  /-- A reply from the secondary listener through an existing mapping. -/
  | fullConeCheck
  /-- An echo and then a reply from the tertiary listener. -/
  | portRestrictedCheck
  deriving DecidableEq, Repr

namespace Kind

/-- All kinds, in the order of their codes. -/
def all : List Kind := [.ping, .publicCheck, .fullConeCheck, .portRestrictedCheck]

/-- The number that stands for the kind in a message. -/
def code : Kind → UInt8
  | .ping => 0
  | .publicCheck => 1
  | .fullConeCheck => 2
  | .portRestrictedCheck => 3

def ofCode? (code : UInt8) : Option Kind := all.find? (·.code = code)

def unknownText (code : UInt8) : String := s!"Unknown request type: {code}"

def ofCode (code : UInt8) : Except String Kind :=
  match ofCode? code with
  | some kind => .ok kind
  | none => .error (unknownText code)

def name : Kind → String
  | .ping => "Ping"
  | .publicCheck => "PublicCheck"
  | .fullConeCheck => "FullConeCheck"
  | .portRestrictedCheck => "PortRestrictedCheck"

def read : Reader Kind := .accept ofCode Json.readUInt8

def value (kind : Kind) : Value := .integer kind.code.toNat

end Kind

structure Message where
  kind : Kind
  /-- The text of the address that the request was seen to come from, in a reply. -/
  observed : Option String
  deriving DecidableEq, Repr

/-- The largest datagram that either side accepts. -/
def maxDatagram : Nat := 1024

/-- A receiver's buffer has room for one byte more, so that a datagram that is too large shows. -/
def received (datagram : Bytes) : Bytes := datagram.take (maxDatagram + 1)

inductive DecodeError
  | tooLarge (size : Nat)
  | malformed (cause : Cause)
  deriving DecidableEq, Repr

def DecodeError.message : DecodeError → String
  | .tooLarge size => s!"Datagram too large: {size} bytes (max {maxDatagram})"
  | .malformed cause => "Malformed probe message: " ++ cause.message

namespace Message

def request (kind : Kind) : Message := ⟨kind, none⟩

def reply (kind : Kind) (source : Endpoint) : Message := ⟨kind, some source.text⟩

/-- What is missing from a message is a ping, or no address. -/
def record : Record Message where
  name := "ProbeMessage"
  initial := ⟨.ping, none⟩
  complete := true
  members :=
    [.of "ReqType" Kind.read fun kind m => { m with kind },
     { Member.of "Addr" (Json.readOptional Json.readString) fun observed m => { m with observed } with
       aliases := ["addr"] }]

/-- No address is written where there is none. -/
def value (m : Message) : Value :=
  .object (("ReqType", m.kind.value) :: (m.observed.map fun s => ("Addr", .text s)).toList)

def encode (m : Message) : Bytes := Utf8.encode m.value.compact

def decode (datagram : Bytes) : Except DecodeError Message :=
  if maxDatagram < datagram.length then .error (.tooLarge datagram.length)
  else
    match Json.readAll record.read datagram with
    | .ok m => .ok m
    | .error cause => .error (.malformed cause)

end Message

end NatBehaviour.Wire
