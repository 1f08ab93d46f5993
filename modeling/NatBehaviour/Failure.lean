import NatBehaviour.Json.Error
import NatBehaviour.Net.Endpoint
import NatBehaviour.OsError

/-!
Everything that the library reports as a failure: a socket that cannot be bound, and a configuration
that is unusable or cannot be read or written. `Fatal` lists the two arithmetic limits past which an
operation has no result at all.
-/

namespace NatBehaviour

open NatBehaviour.Net (Endpoint)

inductive ConfigFault
  | emptyHost
  | noAttempts
  | noTimeout
  | noHandlers
  | repeatedPort (port : UInt16)
  | unreadable (path : String) (error : OsError)
  | malformed (path : String) (cause : Json.Cause)
  | noDirectory (error : OsError)
  | unwritable (path : String) (error : OsError)
  deriving DecidableEq, Repr

def ConfigFault.message : ConfigFault → String
  | emptyHost => "server_host must not be empty"
  | noAttempts => "max_probe_attempts must be at least 1"
  | noTimeout => "probe_timeout_ms must be non-zero"
  | noHandlers => "max_in_flight_per_listener must be at least 1"
  | repeatedPort port => s!"listener ports must be distinct, {port} is used twice"
  | unreadable path error => "Failed to read " ++ path ++ ": " ++ error.message
  | malformed path cause => "Failed to parse " ++ path ++ ": " ++ cause.message
  | noDirectory error => "Failed to create config directory: " ++ error.message
  | unwritable path error => "Failed to write " ++ path ++ ": " ++ error.message

/-- A socket that could not be bound, by what it is for. -/
inductive BindFault
  | listener (address : Endpoint) (error : OsError)
  | probe (address : Endpoint) (error : OsError)
  | route (error : OsError)
  deriving DecidableEq, Repr

def BindFault.message : BindFault → String
  | listener address error =>
    "Failed to bind listener on " ++ address.text ++ ": " ++ error.message
  | probe address error =>
    "Failed to bind probe socket on " ++ address.text ++ ": " ++ error.message
  | route error => "Failed to bind route probe socket: " ++ error.message

inductive Failure
  | bind (fault : BindFault)
  | config (fault : ConfigFault)
  deriving DecidableEq, Repr

def Failure.message : Failure → String
  | bind fault => "Bind error: " ++ fault.message
  | config fault => "Config error: " ++ fault.message

inductive Fatal
  | durationOverflow
  | tooManyPermits
  deriving DecidableEq, Repr

/-- The most handlers that a listener can count. -/
def maxPermits : Nat := 1 <<< 61 - 1

def Fatal.message : Fatal → String
  | durationOverflow => "overflow when multiplying duration by scalar"
  | tooManyPermits => s!"a semaphore may not have more than MAX_PERMITS permits ({maxPermits})"

end NatBehaviour
