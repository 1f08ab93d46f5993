/-!
The options of a command. Arguments are looked at from left to right. A value that stands apart from
its option is looked at only when the next option comes or the arguments end, so that what stands
before it decides first how the command line ends.
-/

namespace NatBehaviour.CommandLine

inductive OptionAction
  /-- Takes a value that passes a test. -/
  | value (accepts : String → Bool)
  | switch
  | help
  | version

/-- An option with its names, and the variable of the environment that stands in for it. -/
structure CommandOption where
  long : String
  short : Option Char
  standIn : Option String
  action : OptionAction

/-- Why the arguments are not acted on. -/
inductive Stop
  | help
  | version
  | usage
  deriving DecidableEq, Repr

/-- The options of a command that have been given. -/
structure Given where
  /-- Long names with their values; a switch has the empty one. -/
  values : List (String × String)
  /-- The last option, while its value is to come or has not been looked at. -/
  pending : Option (CommandOption × Option String)
  /-- Two hyphens have been seen, after which nothing is an option. -/
  closed : Bool

namespace Given

def start : Given := ⟨[], none, false⟩

def value? (g : Given) (long : String) : Option String := g.values.lookup long

/-- Takes a value for an option that has not been given before. -/
def put (g : Given) (o : CommandOption) (v : String) : Except Stop Given :=
  if (g.value? o.long).isSome then .error .usage
  else
    match o.action with
    | .value accepts =>
      if accepts v then .ok { g with values := g.values ++ [(o.long, v)] } else .error .usage
    | .switch => .ok { g with values := g.values ++ [(o.long, v)] }
    | .help => .error .help
    | .version => .error .version

/-- Looks at the value that is pending. -/
def settle (g : Given) : Except Stop Given :=
  match g.pending with
  | none => .ok g
  | some (_, none) => .error .usage
  | some (o, some v) => { g with pending := none }.put o v

def settlePut (g : Given) (o : CommandOption) (v : String) : Except Stop Given :=
  match g.settle with
  | .error stop => .error stop
  | .ok g => g.put o v

/-- An option that takes a value waits for it. -/
def wait (g : Given) (o : CommandOption) : Except Stop Given :=
  match g.settle with
  | .error stop => .error stop
  | .ok g => .ok { g with pending := some (o, none) }

def takesValue (o : CommandOption) : Bool :=
  match o.action with
  | .value _ => true
  | _ => false

/-- An option by its long name, with the value that is attached to it, if any. -/
def long (g : Given) (options : List CommandOption) (name : String) (attached : Option String) :
    Except Stop Given :=
  match options.find? (·.long = name) with
  | none => .error .usage
  | some o =>
    match takesValue o, attached with
    | true, some v => g.settlePut o v
    | true, none => g.wait o
    | false, some _ => .error .usage
    | false, none => g.settlePut o ""

/-- Options by their short names. The rest behind one that takes a value is that value. -/
def short (options : List CommandOption) : List Char → Given → Except Stop Given
  | [], g => .ok g
  | c :: rest, g =>
    match options.find? (·.short = some c) with
    | none => .error .usage
    | some o =>
      if takesValue o then
        match rest with
        | [] => g.wait o
        | '=' :: v => g.settlePut o (String.ofList v)
        | v => g.settlePut o (String.ofList v)
      else
        match g.settlePut o "" with
        | .error stop => .error stop
        | .ok g => short options rest g

/-- Splits a text at its first equals sign. -/
def splitEquals (s : List Char) : String × Option String :=
  let name := String.ofList (s.takeWhile (· ≠ '='))
  match s.dropWhile (· ≠ '=') with
  | [] => (name, none)
  | _ :: v => (name, some (String.ofList v))

/-- Takes one argument that is no command. -/
def take (g : Given) (options : List CommandOption) (argument : String) : Except Stop Given :=
  match g.closed, argument.toList with
  | true, _ => .error .usage
  | false, ['-', '-'] => .ok { g with closed := true }
  | false, '-' :: '-' :: s => g.long options (splitEquals s).1 (splitEquals s).2
  | false, '-' :: c :: s => short options (c :: s) g
  | false, _ =>
    match g.pending with
    | some (o, none) => .ok { g with pending := some (o, some argument) }
    | _ => .error .usage

/-- Whether the next argument may be the name of a command. -/
def expectsCommand (g : Given) : Bool :=
  !g.closed &&
    match g.pending with
    | some (_, none) => false
    | _ => true

/-- Takes arguments up to the name of a command. -/
def takeUntil (options : List CommandOption) (isCommand : String → Bool) :
    List String → Given → Except Stop (Given × List String)
  | [], g => .ok (g, [])
  | a :: arguments, g =>
    if g.expectsCommand && isCommand a then .ok (g, a :: arguments)
    else
      match g.take options a with
      | .error stop => .error stop
      | .ok g => takeUntil options isCommand arguments g

/-- Values for the options that were not given are taken from the environment. -/
def complete (environment : String → Option String) : List CommandOption → Given → Except Stop Given
  | [], g => .ok g
  | o :: options, g =>
    match g.value? o.long, o.standIn.bind environment with
    | none, some v =>
      match g.put o v with
      | .error stop => .error stop
      | .ok g => complete environment options g
    | _, _ => complete environment options g

/-- What is to be done when all arguments of a command have been taken. -/
def finish (g : Given) (environment : String → Option String) (options : List CommandOption) :
    Except Stop Given :=
  match g.settle with
  | .error stop => .error stop
  | .ok g => g.complete environment options

end Given

end NatBehaviour.CommandLine
