import NatBehaviour.Network.Program

/-!
A model of the network. Time passes only while a program waits on an empty inbox. Datagrams that are
due go to the sockets that are bound to their destination at that moment, and are lost if there are
none; what has not been read stays in the inbox. Any wait may end early since its socket reports an error.
-/

namespace NatBehaviour

open NatBehaviour.Json (Bytes)
open NatBehaviour.Net (Ip Endpoint)
open NatBehaviour.Probe (Datagram Filter Reading)
open NatBehaviour.Wire (Message)

namespace Network

structure Transmission where
  time : Nat
  source : Endpoint
  destination : Endpoint
  payload : Bytes
  deriving DecidableEq, Repr

/-- A datagram that the network delivers some time after it was caused. -/
structure Response where
  delay : Nat
  destination : Endpoint
  datagram : Datagram
  deriving DecidableEq, Repr

end Network

open Network (Response SocketAddress Transmission)

/-- How the host and the network around it behave. -/
structure Network where
  resolve : String → UInt16 → List Endpoint
  /-- The address that a socket gets, given the addresses in use. -/
  bind : List Endpoint → Endpoint → Except OsError Endpoint
  route : Endpoint → Option Ip
  /-- What a transmission brings about, given the earlier ones (last one first); nothing at all if it
  cannot be sent. -/
  carry : List (Transmission × Bool) → Transmission → Option (List Response)
  /-- How many milliseconds after a wait has begun its socket reports an error in place of a datagram, if it
  does, given the transmissions so far (last one first). The error comes before everything that has not been
  read by then. -/
  failure : List (Transmission × Bool) → SocketAddress → Option Nat

namespace Network

/-- How long a wait without a usable reply lasts: to its end, or until there is an error. It does not even
begin if there is one at once. -/
def patience (net : Network) (log : List (Transmission × Bool)) (socket : SocketAddress) (timeoutMs : Nat) :
    Option Nat :=
  match net.failure log socket with
  | none => some timeoutMs
  | some 0 => none
  | some ms => some (min ms timeoutMs)

structure Socket where
  address : Endpoint
  /-- What has arrived and has not been read, in order of arrival. -/
  inbox : List Datagram
  deriving DecidableEq, Repr

structure Arrival where
  due : Nat
  destination : Endpoint
  datagram : Datagram
  deriving DecidableEq, Repr

structure World where
  clock : Nat
  /-- Addresses that others have bound. -/
  taken : List Endpoint
  /-- The sockets of the program, in the order in which they were bound. -/
  sockets : List Socket
  /-- What is on its way, in order of arrival. -/
  arrivals : List Arrival
  /-- Everything that the program tried to send, last one first, and whether it was sent. -/
  log : List (Transmission × Bool)
  deriving DecidableEq, Repr

namespace World

/-- A world in which nothing has happened yet. -/
def start (taken : List Endpoint) : World := ⟨0, taken, [], [], []⟩

def inUse (w : World) : List Endpoint := w.taken ++ w.sockets.map (·.address)

def inbox (w : World) (socket : SocketAddress) : List Datagram :=
  ((w.sockets.find? (·.address = socket)).map (·.inbox)).getD []

def setInbox (w : World) (socket : SocketAddress) (inbox : List Datagram) : World :=
  { w with
    sockets := w.sockets.map fun s => if s.address = socket then { s with inbox } else s }

/-- Puts a datagram into the inbox of the socket that is bound to an address. -/
def deliver (w : World) (destination : Endpoint) (d : Datagram) : World :=
  { w with
    sockets := w.sockets.map fun s =>
      if s.address = destination then { s with inbox := s.inbox ++ [d] } else s }

/-- Of two arrivals at the same time, the one that was caused first comes first. -/
def insertArrival (a : Arrival) : List Arrival → List Arrival
  | [] => [a]
  | b :: bs => if b.due ≤ a.due then b :: insertArrival a bs else a :: b :: bs

/-- Lets a response happen now or later. -/
def respond (w : World) (r : Response) : World :=
  if r.delay = 0 then w.deliver r.destination r.datagram
  else
    let arrival := ⟨w.clock + r.delay, r.destination, r.datagram⟩
    { w with arrivals := insertArrival arrival w.arrivals }

/-- Delivers the next arrival, at the time when it is due. -/
def arrive (w : World) (a : Arrival) (later : List Arrival) : World :=
  { w with clock := max w.clock a.due, arrivals := later }.deliver a.destination a.datagram

/-- Delivers everything that is due by now, in front of the given arrivals. -/
def flush (w : World) : List Arrival → World
  | [] => { w with arrivals := [] }
  | a :: later =>
    if a.due ≤ w.clock then (w.deliver a.destination a.datagram).flush later
    else { w with arrivals := a :: later }

def bindSocket (net : Network) (w : World) (address : Endpoint) :
    Except OsError SocketAddress × World :=
  match net.bind w.inUse address with
  | .error e => (.error e, w)
  | .ok address => (.ok address, { w with sockets := w.sockets ++ [⟨address, []⟩] })

def closeSocket (w : World) (socket : SocketAddress) : World :=
  { w with sockets := w.sockets.eraseP (·.address = socket) }

def send (net : Network) (w : World) (socket : SocketAddress) (destination : Endpoint)
    (payload : Bytes) : Bool × World :=
  let t : Transmission := ⟨w.clock, socket, destination, payload⟩
  match net.carry w.log t with
  | none => (false, { w with log := (t, false) :: w.log })
  | some responses => (true, responses.foldl respond { w with log := (t, true) :: w.log })

/-- What a socket's inbox holds for the client that waits. -/
def check (w : World) (socket : SocketAddress) (filter : Filter) (sawUndecodable : Bool) :
    Filter.Scan :=
  filter.scan sawUndecodable (w.inbox socket)

/-- What a client hears before some time: the first usable reply, or none. -/
inductive Hearing
  | reply (message : Message) (w : World)
  | silence (sawUndecodable : Bool) (w : World)

/-- Listens to the given arrivals, which are still to come, where the inbox has been emptied. -/
def hearArrivals (socket : SocketAddress) (filter : Filter) (stop : Nat) :
    List Arrival → Bool → World → Hearing
  | [], sawUndecodable, w => .silence sawUndecodable { w with arrivals := [] }
  | a :: later, sawUndecodable, w =>
    if a.due < stop then
      let w := w.arrive a later
      match w.check socket filter sawUndecodable with
      | .found reply rest => .reply reply ((w.setInbox socket rest).flush later)
      | .exhausted sawUndecodable =>
        hearArrivals socket filter stop later sawUndecodable (w.setInbox socket [])
    else .silence sawUndecodable { w with arrivals := a :: later }

/-- Listens to what is in the inbox and then to what arrives before some time. -/
def hear (w : World) (socket : SocketAddress) (filter : Filter) (stop : Nat) : Hearing :=
  match w.check socket filter false with
  | .found reply rest => .reply reply (w.setInbox socket rest)
  | .exhausted sawUndecodable =>
    hearArrivals socket filter stop w.arrivals sawUndecodable (w.setInbox socket [])

/-- Lets time pass, and delivers what is due then. -/
def settle (w : World) (time : Nat) : World :=
  { w with clock := max w.clock time }.flush w.arrivals

/-- Waits for a usable reply until the clock shows `stop`. What arrives at that very time stays in the
inbox. -/
def awaitUntil (w : World) (socket : SocketAddress) (filter : Filter) (stop : Nat) :
    Reading × World :=
  match w.hear socket filter stop with
  | .reply message w => (.reply message, w)
  | .silence sawUndecodable w => (.ofSilence sawUndecodable, w.settle stop)

/-- Waits for a usable reply. An error ends the wait with what has been read by then. -/
def await (net : Network) (w : World) (socket : SocketAddress) (timeoutMs : Nat) (filter : Filter) :
    Reading × World :=
  match net.patience w.log socket timeoutMs with
  | none => (.nothing, w)
  | some ms => w.awaitUntil socket filter (w.clock + ms)

/-- Takes one action. -/
def perform (net : Network) (w : World) : (action : Action) → action.Answer × World
  | .resolve host port => (net.resolve host port, w)
  | .bind address => w.bindSocket net address
  | .close socket => ((), w.closeSocket socket)
  | .route _ destination => (net.route destination, w)
  | .send socket destination payload => w.send net socket destination payload
  | .await socket timeoutMs filter => w.await net socket timeoutMs filter
  | .clock => (w.clock, w)

end World

namespace Program

variable {α : Type}

/-- Runs a program to its end. -/
def run (net : Network) : Program α → World → α × World
  | done a, w => (a, w)
  | act action next, w =>
    let (answer, w) := w.perform net action
    (next answer).run net w

/-- Closes the sockets that were not open before. -/
def abandon (before after : World) : World :=
  { after with
    sockets := after.sockets.filter fun s => before.sockets.any (·.address = s.address) }

/-- Takes one action, unless that would mean to wait beyond some time. -/
def performWithin (net : Network) (limit : Nat) (w : World) (action : Action) :
    Option action.Answer × World :=
  match action with
  | .await socket timeoutMs filter =>
    match net.patience w.log socket timeoutMs with
    | none => (some .nothing, w)
    | some ms =>
      let stop := w.clock + ms
      match w.hear socket filter (min stop (limit + 1)) with
      | .reply message w => (some (.reply message), w)
      | .silence sawUndecodable w =>
        if stop ≤ limit then (some (.ofSilence sawUndecodable), w.settle stop)
        else (none, w.settle limit)
  | action =>
    let (answer, w) := w.perform net action
    (some answer, w)

def runUntil (net : Network) (limit : Nat) : Program α → World → Option α × World
  | done a, w => (some a, w)
  | act action next, w =>
    match performWithin net limit w action with
    | (some answer, w) => (next answer).runUntil net limit w
    | (none, w) => (none, w)

/-- Runs a program, but not beyond some time: then it is cut off and its sockets are closed. It is
cut off only where it waits, so that at the very end of the time it may still finish. -/
def runWithin (net : Network) (limit : Nat) (p : Program α) (w : World) : Option α × World :=
  match p.runUntil net limit w with
  | (some a, w') => (some a, w')
  | (none, w') => (none, abandon w w')

end Program

end Network

end NatBehaviour
