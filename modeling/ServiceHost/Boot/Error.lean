import ServiceHost.Capability
import ServiceHost.Discovery.Error
import ServiceHost.Injection.Error
import ServiceHost.Registry
import ServiceHost.Settings.Error

/-!
# Boot errors — why a host did not come up

A boot stops at its first error. One that another part of the host raised keeps it as its cause,
so the chain of a boot error ends in the sentence of that part.
-/

set_option autoImplicit false

namespace ServiceHost

/-- The calls that a module receives in its life. -/
inductive Phase where
  | setUp
  | start
  | shutdown
deriving DecidableEq, Repr, Inhabited

def Phase.name : Phase → String
  | .setUp => "initialize"
  | .start => "start"
  | .shutdown => "shutdown"

/-- The texts of a cause that is one sentence. -/
def Failure.ofMessage (message : String) : Failure where
  message := message

/-- Why a host did not come up. Durations are in nanoseconds. -/
inductive BootError where
  /-- The modules on a cycle of dependencies, each before one that it depends on. -/
  | cyclic (cycle : List String)
  | missingProvider (module capability : String)
  | invalidCapability (module : String) (cause : CapabilityError)
  | injection (cause : InjectionError)
  | discovery (cause : DiscoveryError)
  /-- A module failed in one of its calls. -/
  | failed (phase : Phase) (module : String) (cause : Failure)
  | timeout (phase : Phase) (module : String) (elapsed limit : Nat)
  | settings (cause : SettingsError)
  | vault (cause : VaultError)
  | healthCheck (cause : LookupError)
deriving DecidableEq, Repr

/-- A duration in whole milliseconds. -/
def millisOfNanos (nanos : Nat) : Nat :=
  nanos / 1000000

namespace BootError

def message : BootError → String
  | .cyclic cycle =>
    "cyclic dependency between extensions: " ++ " -> ".intercalate (cycle ++ cycle.take 1)
  | .missingProvider module capability =>
    "extension " ++ module ++ " requires capability " ++ capability ++
      ", which no extension provides"
  | .invalidCapability module cause =>
    "extension " ++ module ++ " declares an invalid capability: " ++ cause.message
  | .injection cause => cause.message
  | .discovery cause => "discovery failed: " ++ cause.message
  | .failed phase module cause =>
    "failed to " ++ phase.name ++ " " ++ module ++ ": " ++ cause.message
  | .timeout phase module elapsed limit =>
    phase.name ++ " of " ++ module ++ " took " ++ toString (millisOfNanos elapsed) ++
      "ms, timeout is " ++ toString (millisOfNanos limit) ++ "ms"
  | .settings cause => "configuration failed: " ++ cause.message
  | .vault cause => "vault initialization failed: " ++ cause.message
  | .healthCheck cause => "health check service unavailable: " ++ cause.message

/-- The cause behind an error, if another part raised it. -/
def cause? : BootError → Option Failure
  | .cyclic _ | .missingProvider .. | .timeout .. => none
  | .invalidCapability _ cause => some (.ofMessage cause.message)
  | .injection cause => some (.ofMessage cause.message)
  | .discovery cause => some (.ofMessage cause.message)
  | .failed _ _ cause => some cause
  | .settings cause => some (.ofMessage cause.message)
  | .vault cause => some (.ofMessage cause.message)
  | .healthCheck cause => some (.ofMessage cause.message)

def toFailure (error : BootError) : Failure :=
  match error.cause? with
  | some cause => cause.under error.message
  | none => .ofMessage error.message

end BootError

end ServiceHost
