import NatBehaviour.Proofs.CommandLine.Arguments
import NatBehaviour.Proofs.Discovery.Deadline
import NatBehaviour.Proofs.Settings.Overlay
import NatBehaviour.Proofs.Settings.Storage
import NatBehaviour.Proofs.Settings.Validity

/-!
Which settings a command goes by. The file stands over the defaults, and the options stand over the file; the
environment stands in for options that the arguments do not give. A file that gives no settings ends the command
whatever the options say. The settings are checked when all this is done, and if they are refused then, the
command ends before it takes any action.
-/

namespace NatBehaviour.Settings

def Kind.validate : (k : Kind) → k.Data → Except Failure Unit
  | .probe => Probe.validate
  | .responder => Responder.validate

end NatBehaviour.Settings

namespace NatBehaviour.CommandLine

open NatBehaviour.Discovery (Stamp)
open NatBehaviour.Json (Assigns Overlays WellTyped)
open NatBehaviour.Network (Program)
open NatBehaviour.Settings (Kind Source repeated?)
open NatBehaviour.Text

variable {environment : String → Option String} {find : String → Source} {arguments : List String}
  {i : Invocation} {config : Option String} {stamp : Stamp}

/-- A file with settings for a client. -/
def saved (p : Settings.Probe) (_ : String) : Source := .contents (Settings.Probe.format.written p)

end NatBehaviour.CommandLine
