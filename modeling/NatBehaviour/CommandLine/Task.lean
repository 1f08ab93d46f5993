import NatBehaviour.CommandLine.Invocation
import NatBehaviour.Discovery.Client
import NatBehaviour.Responder.Binding
import NatBehaviour.Responder.Service
import NatBehaviour.Settings.Storage

/-!
What the program does with its arguments. The settings are those of the file with the given options in
their place, and are checked only then.
-/

namespace NatBehaviour.CommandLine

open NatBehaviour.Discovery (Client Report Stamp)
open NatBehaviour.Network (Program SocketAddress)
open NatBehaviour.Responder (Service)
open NatBehaviour.Settings (Format Source)
open NatBehaviour.Wire (Listeners)

/-- How a run of the program ends. -/
structure Ending where
  code : UInt8
  output : String
  errors : String
  deriving DecidableEq, Repr

namespace Ending

def success (output : String) : Ending := ⟨0, output, ""⟩

/-- A text of which every line is set off by four blanks. -/
def setOff (s : String) : String :=
  String.ofList ("    ".toList ++ s.toList.flatMap fun c => if c = '\n' then "\n    ".toList else [c])

def failed (f : Failure) : Ending := ⟨1, "", "Error: " ++ f.message ++ "\n"⟩

/-- A failure, and what was being done when it came. -/
def failedIn (occupation : String) (f : Failure) : Ending :=
  ⟨1, "", "Error: " ++ occupation ++ "\n\nCaused by:\n" ++ setOff f.message ++ "\n"⟩

def crashed (f : Fatal) : Ending := ⟨101, "", f.message ++ "\n"⟩

def versionText : String := "natprobe 0.3.0\n"

def usageText : String :=
  "Usage: natprobe [--config <CONFIG>] <COMMAND>\n\n" ++
  "Commands:\n" ++
  "  serve   Run the discovery responder [--bind <IP>] [--max-in-flight <N>]\n" ++
  "  detect  Classify this host's NAT behavior [--server <HOST>] [--attempts <N>]\n" ++
  "          [--timeout-ms <N>] [--json]\n" ++
  "  help    Print this message\n"

def ofStop : Stop → Ending
  | .help => success usageText
  | .version => success versionText
  | .usage => ⟨2, "", usageText⟩

end Ending

/-- The options that are given replace the settings that they name. -/
def DetectOptions.over (o : DetectOptions) (p : Settings.Probe) : Settings.Probe :=
  { p with
    serverHost := o.server.getD p.serverHost
    maxAttempts := o.attempts.getD p.maxAttempts
    timeoutMs := o.timeoutMs.getD p.timeoutMs }

def ServeOptions.over (o : ServeOptions) (r : Settings.Responder) : Settings.Responder :=
  { r with
    bindIp := o.bindIp.getD r.bindIp
    maxInFlight := o.maxInFlight.getD r.maxInFlight }

/-- A command with its settings. -/
inductive Task
  | serve (settings : Settings.Responder)
  | detect (settings : Settings.Probe) (json : Bool)
  deriving DecidableEq, Repr

/-- The settings at the path that is given, or the default ones. -/
def settings {α : Type} (f : Format α) (config : Option String) (find : String → Source) :
    Except Ending α :=
  match config with
  | none => .ok f.record.initial
  | some path =>
    match f.ofSource path (find path) with
    | .ok settings => .ok settings
    | .error failure => .error (.failedIn ("loading " ++ path) failure)

def Invocation.task (i : Invocation) (find : String → Source) : Except Ending Task :=
  match i.command with
  | .serve o => (settings Settings.Responder.format i.config find).map fun r => .serve (o.over r)
  | .detect o =>
    (settings Settings.Probe.format i.config find).map fun p => .detect (o.over p) o.json

/-- What the arguments ask for, given the environment and the files. -/
def task (environment : String → Option String) (find : String → Source) (arguments : List String) :
    Except Ending Task :=
  match Invocation.ofArguments environment arguments with
  | .error stop => .error (.ofStop stop)
  | .ok i => i.task find

/-- A report for people: the verdicts and the conclusion. -/
def plainText (r : Report) : String :=
  let c := r.classification
  r.summary ++ "\n" ++ s!"NAT type: {c.title} (code {c.code}, relay required: {c.requiresRelay})\n"

def reportText (json : Bool) (r : Report) : String :=
  if json then r.value.prettyText ++ "\n" else plainText r

def runDetect (p : Settings.Probe) (json : Bool) (stamp : Stamp) : Program Ending := do
  match Client.ofSettings p with
  | .error f => return .failed f
  | .ok client =>
    match ← client.run stamp with
    | .error f => return .failed f
    | .ok report => return .success (reportText json report)

/-- Binds and starts a responder: the sockets that it serves on, and its listeners. -/
def startServing (r : Settings.Responder) :
    Program (Except Ending (Listeners SocketAddress × Service)) := do
  match ← Responder.bind r with
  | .error f => return .error (.failedIn "starting responder" f)
  | .ok sockets =>
    match Service.start r.maxInFlight.toNat with
    | .error f => return .error (.crashed f)
    | .ok service => return .ok (sockets, service)

/-- How far the program comes by itself: to its end, or to where it serves until it is interrupted. -/
inductive Progress
  | ended (ending : Ending)
  | serving (sockets : Listeners SocketAddress) (service : Service)
  deriving DecidableEq, Repr

def Task.program (stamp : Stamp) : Task → Program Progress
  | .serve r => do
    match ← startServing r with
    | .error ending => return .ended ending
    | .ok (sockets, service) => return .serving sockets service
  | .detect p json => do
    return .ended (← runDetect p json stamp)

/-- The program with its arguments, given the environment and the files. -/
def program (environment : String → Option String) (find : String → Source) (arguments : List String)
    (stamp : Stamp) : Program Progress :=
  match task environment find arguments with
  | .error ending => return .ended ending
  | .ok task => task.program stamp

end NatBehaviour.CommandLine
