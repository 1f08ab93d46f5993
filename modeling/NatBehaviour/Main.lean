import NatBehaviour.CommandLine.Task
import Std.Async.DNS
import Std.Async.Select
import Std.Async.Signal
import Std.Async.Timer
import Std.Async.UDP
import Std.Time.DateTime.Timestamp

/-!
The program on a real host. Actions are carried out by the operating system; everything that is
decided is decided in the other modules.
-/

namespace NatBehaviour.Live

open NatBehaviour.CommandLine (Ending)
open NatBehaviour.Discovery (Stamp)
open NatBehaviour.Json (Bytes)
open NatBehaviour.Net (Ip Ipv4 Ipv6 Endpoint)
open NatBehaviour.Network (Action Program)
open NatBehaviour.Probe (Datagram Filter Reading)
open NatBehaviour.Settings (Source)
open NatBehaviour.Wire (Listeners Role)
open Std.Async (Async Selectable Selector)

/-! ## Addresses and errors -/

def ofIpv4 (ip : Std.Net.IPv4Addr) : Ipv4 :=
  ⟨ip.octets[0], ip.octets[1], ip.octets[2], ip.octets[3]⟩

def ofIpv6 (ip : Std.Net.IPv6Addr) : Ipv6 :=
  let g := ip.segments
  ⟨g[0], g[1], g[2], g[3], g[4], g[5], g[6], g[7]⟩

def ofIp : Std.Net.IPAddr → Ip
  | .v4 ip => .v4 (ofIpv4 ip)
  | .v6 ip => .v6 (ofIpv6 ip)

def ofAddress : Std.Net.SocketAddress → Endpoint
  | .v4 a => .v4 (ofIpv4 a.addr) a.port
  | .v6 a => .v6 (ofIpv6 a.addr) a.port 0

def toAddress : Endpoint → Std.Net.SocketAddress
  | .v4 ip port => .v4 ⟨⟨#v[ip.a, ip.b, ip.c, ip.d]⟩, port⟩
  | .v6 ip port _ =>
    .v6 ⟨⟨#v[ip.g0, ip.g1, ip.g2, ip.g3, ip.g4, ip.g5, ip.g6, ip.g7]⟩, port⟩

/-- The number that the system gave an error, if it gave one. -/
def errorCode : IO.Error → UInt32
  | .alreadyExists _ n _ | .otherError n _ | .resourceBusy n _ | .resourceVanished n _
  | .unsupportedOperation n _ | .hardwareFault n _ | .unsatisfiedConstraints n _
  | .illegalOperation n _ | .protocolError n _ | .timeExpired n _ | .interrupted _ n _
  | .noFileOrDirectory _ n _ | .invalidArgument _ n _ | .permissionDenied _ n _
  | .resourceExhausted _ n _ | .inappropriateType _ n _ | .noSuchThing _ n _ => n
  | .unexpectedEof | .userError _ => 0

def osError (e : IO.Error) : OsError :=
  match errorCode e with
  | 2 => .notFound
  | 13 => .permissionDenied
  | 17 => .fileExists
  | 20 => .notADirectory
  | 21 => .isADirectory
  | 22 => .invalidArgument
  | 36 => .nameTooLong
  | 98 => .addressInUse
  | 99 => .addressNotAvailable
  | _ => .other (toString e)

/-! ## Actions -/

/-- The open sockets, by the address that they are bound to. -/
abbrev Sockets := IO.Ref (List (Endpoint × Std.Async.UDP.Socket))

def bind (sockets : Sockets) (address : Endpoint) : IO (Except OsError Endpoint) := do
  try
    let socket ← Std.Async.UDP.Socket.mk
    socket.bind (toAddress address)
    let bound := ofAddress (← socket.getSockName)
    sockets.modify ((bound, socket) :: ·)
    return .ok bound
  catch e =>
    return .error (osError e)

def resolve (host : String) (port : UInt16) : IO (List Endpoint) := do
  match Ip.ofString? host with
  | some ip => return [.of ip port]
  | none =>
    try
      let ips ← (Std.Async.DNS.getAddrInfo host "").block
      return ips.toList.map fun ip => .of (ofIp ip) port
    catch _ => return []

def route (socket : Std.Async.UDP.Socket) (destination : Endpoint) : IO (Option Ip) := do
  try
    socket.connect (toAddress destination)
    return some (ofAddress (← socket.getSockName)).ip
  catch _ => return none

def send (socket : Std.Async.UDP.Socket) (destination : Endpoint) (payload : Bytes) : IO Bool := do
  try
    (socket.send ⟨payload.toArray⟩ (some (toAddress destination))).block
    return true
  catch _ => return false

/-- Room for a datagram, with one byte to spare. -/
def bufferSize : UInt64 := (Wire.maxDatagram + 1).toUInt64

/-- The longest time that the system is asked to wait at once, in milliseconds. -/
def longestWait : Nat := 3600000

/-- What comes of waiting for a datagram. -/
inductive Received
  | datagram (d : Datagram)
  | nothing
  | failed

/-- The next datagram, if it comes within some time. -/
def receive (socket : Std.Async.UDP.Socket) (waitMs : Nat) : IO Received := do
  try
    Async.block do
      let timer ← Selector.sleep (.ofNat waitMs)
      Selectable.one #[
        .case (socket.recvSelector bufferSize) fun (payload, source) =>
          match source with
          | some source => return .datagram ⟨ofAddress source, payload.toList⟩
          | none => return .nothing,
        .case timer fun _ => return .nothing]
  catch _ => return .failed

/-- Reads until a reply comes, the time is up or a receive fails. -/
partial def await (socket : Std.Async.UDP.Socket) (filter : Filter) (stop : Nat)
    (sawUndecodable : Bool) : IO Reading := do
  let now ← IO.monoMsNow
  if stop ≤ now then return .ofSilence sawUndecodable
  match ← receive socket (min longestWait (stop - now)) with
  | .failed => return .ofSilence sawUndecodable
  | .nothing => await socket filter stop sawUndecodable
  | .datagram d =>
    match filter.judge d with
    | .usable reply => return .reply reply
    | .undecodable => await socket filter stop true
    | .ignored => await socket filter stop sawUndecodable

def perform (sockets : Sockets) : (action : Action) → IO action.Answer
  | .resolve host port => resolve host port
  | .bind address => bind sockets address
  | .close socket => sockets.modify (·.filter (·.1 ≠ socket))
  | .route socket destination => do
    match (← sockets.get).lookup socket with
    | some s => route s destination
    | none => return none
  | .send socket destination payload => do
    match (← sockets.get).lookup socket with
    | some s => send s destination payload
    | none => return false
  | .await socket timeoutMs filter => do
    match (← sockets.get).lookup socket with
    | some s => await s filter ((← IO.monoMsNow) + timeoutMs) false
    | none => return .nothing
  | .clock => IO.monoMsNow

def execute {α : Type} (sockets : Sockets) : Program α → IO α
  | .done a => return a
  | .act action next => do
    let answer ← perform sockets action
    execute sockets (next answer)

/-! ## Serving -/

inductive Happening
  | interrupted
  | received (role : Role) (d : Datagram)
  | nothing

def listen (socket : Std.Async.UDP.Socket) (role : Role) : Selectable Happening :=
  .case (socket.recvSelector bufferSize) fun (payload, source) =>
    match source with
    | some source => return .received role ⟨ofAddress source, payload.toList⟩
    | none => return .nothing

/-- The pause after a receive that failed, in milliseconds. -/
def pauseMs : UInt32 := 50

/-- Waits for the next thing to happen. -/
def next (ls : Listeners Std.Async.UDP.Socket) (signal : Std.Async.Signal.Waiter) : IO Happening := do
  try
    Async.block (Selectable.one #[
      .case signal.selector fun _ => return .interrupted,
      listen ls.primary .primary, listen ls.secondary .secondary, listen ls.tertiary .tertiary])
  catch _ =>
    IO.sleep pauseMs
    return .nothing

/-- Answers datagrams until the program is interrupted. -/
partial def serve (sockets : Sockets) (addresses : Listeners Endpoint)
    (ls : Listeners Std.Async.UDP.Socket) (signal : Std.Async.Signal.Waiter) : IO Unit := do
  match ← next ls signal with
  | .interrupted => return
  | .nothing => serve sockets addresses ls signal
  | .received role d =>
    execute sockets (Responder.handle addresses role d)
    serve sockets addresses ls signal

/-- The sockets of all listeners. -/
def socketsOf (sockets : Sockets) (ls : Listeners Endpoint) :
    IO (Option (Listeners Std.Async.UDP.Socket)) := do
  let opened ← sockets.get
  return do
    return ⟨← opened.lookup ls.primary, ← opened.lookup ls.secondary, ← opened.lookup ls.tertiary⟩

/-! ## The whole program -/

/-- What there is at a path. Whatever cannot be reached counts as missing, for whichever reason. -/
def source (path : String) : IO Source := do
  try
    let _ ← IO.FS.realPath path
  catch _ => return .missing
  try
    return .contents (← IO.FS.readBinFile path).toList
  catch e => return .unreadable (osError e)

/-- The contents of the one file that the arguments name. -/
def find (environment : String → Option String) (arguments : List String) :
    IO (String → Source) := do
  match CommandLine.Invocation.ofArguments environment arguments with
  | .ok ⟨some path, _⟩ =>
    let found ← source path
    return fun _ => found
  | _ => return fun _ => .missing

def stamp : IO Stamp := do
  let bytes ← IO.getRandomBytes 16
  let bits := bytes.toList.foldl (fun n b => n * 256 + b.toNat) 0
  let now := (← Std.Time.Timestamp.now).toMillisecondsSinceUnixEpoch
  return ⟨.ofRandom (BitVec.ofNat 128 bits), Int64.ofInt now.val⟩

def run (arguments : List String) : IO Ending := do
  let config ← IO.getEnv "NATPROBE_CONFIG"
  let server ← IO.getEnv "NATPROBE_SERVER"
  let environment (name : String) : Option String :=
    if name = "NATPROBE_CONFIG" then config else if name = "NATPROBE_SERVER" then server else none
  let sockets ← IO.mkRef []
  let found ← find environment arguments
  match ← execute sockets (CommandLine.program environment found arguments (← stamp)) with
  | .ended ending => return ending
  | .serving addresses _ =>
    match ← socketsOf sockets addresses with
    | none => return .success ""
    | some ls =>
      serve sockets addresses ls (← Std.Async.Signal.Waiter.mk .sigint false)
      return .success ""

end NatBehaviour.Live

def main (arguments : List String) : IO UInt32 := do
  let ending ← NatBehaviour.Live.run arguments
  IO.print ending.output
  IO.eprint ending.errors
  return ending.code.toUInt32
