import NatBehaviour.CommandLine.Options
import NatBehaviour.Net.IpReader

/-!
The commands of the program: `serve` runs a responder, and `detect` classifies the host.
-/

namespace NatBehaviour.CommandLine

open NatBehaviour.Net (Ip)

structure ServeOptions where
  bindIp : Option Ip
  maxInFlight : Option UInt64
  deriving DecidableEq, Repr

structure DetectOptions where
  server : Option String
  attempts : Option UInt32
  timeoutMs : Option UInt64
  json : Bool
  deriving DecidableEq, Repr

inductive Command
  | serve (options : ServeOptions)
  | detect (options : DetectOptions)
  deriving DecidableEq, Repr

structure Invocation where
  /-- The path of the settings. -/
  config : Option String
  command : Command
  deriving DecidableEq, Repr

/-- A number without sign or with a plus sign. -/
def natural? (s : String) : Option Nat :=
  let digits := match s.toList with
    | '+' :: ds => ds
    | ds => ds
  if !digits.isEmpty && digits.all (·.isDigit) then
    some (digits.foldl (fun n c => n * 10 + (c.toNat - '0'.toNat)) 0)
  else none

/-- A number, which may be zero with a minus sign. -/
def uint32? (s : String) : Option UInt32 :=
  let n := match s.toList with
    | '-' :: ds => (natural? (String.ofList ds)).filter fun n => n = 0 ∧ ds.head? ≠ some '+'
    | _ => natural? s
  (n.filter (· < UInt32.size)).map Nat.toUInt32

def uint64? (s : String) : Option UInt64 :=
  ((natural? s).filter (· < UInt64.size)).map Nat.toUInt64

def helpOption : CommandOption := ⟨"help", some 'h', none, .help⟩

def valued {α : Type} (long : String) (short : Option Char) (standIn : Option String)
    (parse : String → Option α) : CommandOption :=
  ⟨long, short, standIn, .value fun s => (parse s).isSome⟩

/-- A path must not be empty. -/
def path? (s : String) : Option String := if s.isEmpty then none else some s

def programOptions : List CommandOption :=
  [valued "config" (some 'c') (some "NATPROBE_CONFIG") path?, helpOption,
   ⟨"version", some 'V', none, .version⟩]

def serveOptions : List CommandOption :=
  [valued "bind" none none Ip.ofString?, valued "max-in-flight" none none uint64?, helpOption]

def detectOptions : List CommandOption :=
  [valued "server" (some 's') (some "NATPROBE_SERVER") some, valued "attempts" none none uint32?,
   valued "timeout-ms" none none uint64?, ⟨"json", none, none, .switch⟩, helpOption]

def commandNames : List String := ["serve", "detect", "help"]

/-- All options of a command, to which all arguments belong. -/
def takeAll (environment : String → Option String) (options : List CommandOption)
    (arguments : List String) : Except Stop Given :=
  match Given.takeUntil options (fun _ => false) arguments .start with
  | .error stop => .error stop
  | .ok (g, _) => g.finish environment options

def readServe (environment : String → Option String) (arguments : List String) :
    Except Stop Command := do
  let g ← takeAll environment serveOptions arguments
  return .serve
    { bindIp := (g.value? "bind").bind Ip.ofString?
      maxInFlight := (g.value? "max-in-flight").bind uint64? }

def readDetect (environment : String → Option String) (arguments : List String) :
    Except Stop Command := do
  let g ← takeAll environment detectOptions arguments
  return .detect
    { server := g.value? "server"
      attempts := (g.value? "attempts").bind uint32?
      timeoutMs := (g.value? "timeout-ms").bind uint64?
      json := (g.value? "json").isSome }

/-- Help is given on the program, or on one of its commands. -/
def readHelp : List String → Stop
  | [] => .help
  | [name] => if commandNames.contains name then .help else .usage
  | _ => .usage

/-- A command with the arguments that follow its name. -/
def readCommand (environment : String → Option String) : List String → Except Stop Command
  | "serve" :: arguments => readServe environment arguments
  | "detect" :: arguments => readDetect environment arguments
  | "help" :: arguments => .error (readHelp arguments)
  | _ => .error .usage

/-- Reads the arguments. Those of the command are looked at before the last option in front of it. -/
def Invocation.ofArguments (environment : String → Option String) (arguments : List String) :
    Except Stop Invocation := do
  let (g, rest) ← Given.takeUntil programOptions commandNames.contains arguments .start
  let command ← readCommand environment rest
  let g ← g.finish environment programOptions
  return ⟨g.value? "config", command⟩

end NatBehaviour.CommandLine
